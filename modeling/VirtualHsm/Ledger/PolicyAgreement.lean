import Mathlib.Data.List.TakeWhile
import VirtualHsm.CS.Decimal
import VirtualHsm.Domain.PolicyDocument
import VirtualHsm.Ledger.AttestationQuorum

/-!
# Two readings of one policy

The module and the contract read the same policy text. The module takes the last value of a name,
skips what it cannot use and has an `int` for the quorum. The contract has Go's decoder: names may
differ in case, values for one field are decoded over each other, a null element is an empty string,
a number must be an integer of 64 bits, and everything else is an error.

So the two disagree on documents that both accept: on a quorum that is no `int`, on names in another
case, on null elements. On plain documents they read the same policy, and then they evaluate alike.
-/

open CS (JsonDoc JsonParser)

namespace VirtualHsm

namespace SignatureLedger

/-! ### Go's decoder -/

/-- The fields of `KeyPolicy`. -/
inductive PolicyField
  | allowedMechanisms
  | notBeforeMs
  | notAfterMs
  | allowedSigners
  | minAttestations
  deriving DecidableEq, Repr

namespace PolicyField

def name : PolicyField → String
  | allowedMechanisms => "allowed_mechanisms"
  | notBeforeMs => "not_before_ms"
  | notAfterMs => "not_after_ms"
  | allowedSigners => "allowed_signers"
  | minAttestations => "min_attestations"

def all : List PolicyField :=
  [allowedMechanisms, notBeforeMs, notAfterMs, allowedSigners, minAttestations]

end PolicyField

/-- `foldRune`, for comparison with ASCII letters: two letters beyond ASCII fold into it, the long s
and the Kelvin sign. -/
def foldRune (c : Char) : Char :=
  if c.isLower then c.toUpper
  else if c = '\u017f' then 'S'
  else if c = '\u212a' then 'K'
  else c

def foldName (s : String) : List Char := s.toList.map foldRune

/-- The field that a name is decoded into: the one with this name, or else one with a name that
differs in case. -/
def fieldOf (key : String) : Option PolicyField :=
  match PolicyField.all.find? fun f => f.name = key with
  | some f => some f
  | none => PolicyField.all.find? fun f => foldName f.name = foldName key

/-- The values for a field, in the order of the document. -/
def valuesFor (f : PolicyField) (fields : List (String × JsonDoc)) : List JsonDoc :=
  fields.filterMap fun kv => if fieldOf kv.1 = some f then some kv.2 else none

/-- A slice: the memory that it has been given, and how much of it is in use. -/
structure Slice where
  mem : List String := []
  len : Nat := 0

def Slice.elems (s : Slice) : List String := s.mem.take s.len

/-- Decode into a string. A null leaves it as it is. -/
def decodeString (old : String) : JsonDoc → Option String
  | .str s => some s
  | .null => some old
  | _ => none

/-- Decode elements over the memory of a slice. -/
def decodeElems : List JsonDoc → List String → Option (List String)
  | [], mem => some mem
  | v :: vs, mem => do
    let s ← decodeString (mem.headD "") v
    let rest ← decodeElems vs mem.tail
    return s :: rest

def decodeSlice (old : Slice) : JsonDoc → Option Slice
  | .null => some {}
  -- An empty array gets a new slice.
  | .arr [] => some {}
  | .arr elems => (decodeElems elems old.mem).map fun mem => { mem, len := elems.length }
  | _ => none

/-- Decode into an integer of 64 bits, which is what an `int` has too. -/
def decodeInt (old : Int) : JsonDoc → Option Int
  | .int n => if -2 ^ 63 ≤ n ∧ n < 2 ^ 63 then some n else none
  | .null => some old
  | _ => none

def decodeStrings (f : PolicyField) (fields : List (String × JsonDoc)) : Option (List String) :=
  ((valuesFor f fields).foldlM decodeSlice {}).map Slice.elems

def decodeNumber (f : PolicyField) (fields : List (String × JsonDoc)) : Option Int :=
  (valuesFor f fields).foldlM decodeInt 0

/-- `json.Unmarshal` into a `KeyPolicy`. A value of the wrong type is an error, though the decoder
goes on to the end. The document null leaves the policy as it is. -/
def unmarshal : JsonDoc → Option KeyPolicy
  | .obj fields => do
    let allowedMechanisms ← decodeStrings .allowedMechanisms fields
    let notBeforeMs ← decodeNumber .notBeforeMs fields
    let notAfterMs ← decodeNumber .notAfterMs fields
    let allowedSigners ← decodeStrings .allowedSigners fields
    let minAttestations ← decodeNumber .minAttestations fields
    return { allowedMechanisms, notBeforeMs, notAfterMs, allowedSigners, minAttestations }
  | .null => some {}
  | _ => none

/-! ### The time -/

/-- `isSpace`, without the newline, which ends the scan with an error. -/
def isSpace (c : Char) : Bool :=
  let n := c.toNat
  (9 ≤ n && n ≤ 13 && n ≠ 10) || (0x2000 ≤ n && n ≤ 0x200a) ||
    n ∈ [0x20, 0x85, 0xa0, 0x1680, 0x2028, 0x2029, 0x202f, 0x205f, 0x3000]

/-- The number at the start of a text. -/
def scanDigits (cs : List Char) : Option Int :=
  let digits := cs.takeWhile Char.isDigit
  if digits = [] then none else some (Nat.ofDigitChars 10 digits 0)

/-- A number with its sign. -/
def scanSigned : List Char → Option Int
  | '-' :: cs => (scanDigits cs).map Neg.neg
  | '+' :: cs => scanDigits cs
  | cs => scanDigits cs

/-- `fmt.Sscanf` with `%d` into an integer of 64 bits: blanks, a sign and digits. What comes after
is not looked at. -/
def scanInt64 (text : String) : Option Int := do
  let n ← scanSigned (text.toList.dropWhile isSpace)
  if -2 ^ 63 ≤ n ∧ n < 2 ^ 63 then some n else none

/-- `evaluatePolicy`, with the time as it is passed. -/
def evaluatePolicyAt (p : KeyPolicy) (actor mechanism nowMsStr : String) (attCount : Nat) :
    Bool × String :=
  evaluatePolicy p actor mechanism ((scanInt64 nowMsStr).getD 0) attCount

theorem isDigit_of_mem_toDigits {n : Nat} {c : Char} (hc : c ∈ Nat.toDigits 10 n) :
    c.isDigit = true :=
  Nat.isDigit_of_mem_toDigits (by decide) (by decide) hc

theorem scanDigits_toDigits (n : Nat) : scanDigits (Nat.toDigits 10 n) = some (n : Int) := by
  have hall : (Nat.toDigits 10 n).takeWhile Char.isDigit = Nat.toDigits 10 n :=
    List.takeWhile_eq_self_iff.mpr fun c hc => isDigit_of_mem_toDigits hc
  rw [scanDigits, hall, if_neg Nat.toDigits_ne_nil,
    Nat.ofDigitChars_toDigits (by decide) (by decide)]

theorem scanSigned_dropWhile_toDigits (n : Nat) :
    scanSigned ((Nat.toDigits 10 n).dropWhile isSpace) = some (n : Int) := by
  cases hdigits : Nat.toDigits 10 n with
  | nil => exact absurd hdigits Nat.toDigits_ne_nil
  | cons c cs =>
    have hc : c.isDigit = true := isDigit_of_mem_toDigits (hdigits ▸ List.mem_cons_self)
    have hrange := CS.toNat_of_isDigit hc
    have hspace : ¬ isSpace c = true := by
      simp [isSpace]
      omega
    rw [List.dropWhile_cons_of_neg hspace]
    unfold scanSigned
    split
    · rename_i heq
      obtain ⟨rfl, -⟩ := List.cons.inj heq
      simp at hrange
    · rename_i heq
      obtain ⟨rfl, -⟩ := List.cons.inj heq
      simp at hrange
    · rw [← hdigits]
      exact scanDigits_toDigits n

theorem scanInt64_toString {n : Int} (hlow : -2 ^ 63 ≤ n) (hhigh : n < 2 ^ 63) :
    scanInt64 (toString n) = some n := by
  have hscan : scanSigned ((toString n).toList.dropWhile isSpace) = some n := by
    cases n with
    | ofNat m =>
      have htext : (toString (Int.ofNat m)).toList = Nat.toDigits 10 m := by
        simp [toString, Int.repr, Nat.repr]
      rw [htext]
      exact scanSigned_dropWhile_toDigits m
    | negSucc m =>
      have htext : (toString (Int.negSucc m)).toList = '-' :: Nat.toDigits 10 (m + 1) := by
        simp [toString, Int.repr, Nat.repr]
      rw [htext, List.dropWhile_cons_of_neg (by decide), scanSigned, scanDigits_toDigits]
      rfl
  rw [scanInt64, hscan]
  exact if_pos ⟨hlow, hhigh⟩

/-! ### Plain documents -/

/-- Names that are decoded are written as they are declared and come once, lists have no null
elements, and the quorum is an `int`. -/
structure Plain (fields : List (String × JsonDoc)) : Prop where
  names : ∀ kv ∈ fields, ∀ f, fieldOf kv.1 = some f → kv.1 = f.name
  once : ∀ f : PolicyField, (fields.filter fun kv => kv.1 = f.name).length ≤ 1
  signers : ∀ elems, CS.lastValue fields "allowed_signers" = some (.arr elems) →
    JsonDoc.null ∉ elems
  mechanisms : ∀ elems, CS.lastValue fields "allowed_mechanisms" = some (.arr elems) →
    JsonDoc.null ∉ elems
  quorum : ∀ n, CS.lastValue fields "min_attestations" = some (.int n) → -2 ^ 31 ≤ n ∧ n < 2 ^ 31

theorem fieldOf_name (f : PolicyField) : fieldOf f.name = some f := by
  cases f <;> decide

section Plain

variable {fields : List (String × JsonDoc)} (hplain : Plain fields)
include hplain

theorem valuesFor_eq (f : PolicyField) :
    valuesFor f fields = (CS.lastValue fields f.name).toList := by
  rw [← CS.map_filter_eq_lastValue (hplain.once f), valuesFor, ← List.filterMap_eq_map,
    ← List.filterMap_eq_filter, List.filterMap_filterMap]
  apply List.filterMap_congr
  intro kv hkv
  have hiff : fieldOf kv.1 = some f ↔ kv.1 = f.name := by
    constructor
    · exact hplain.names kv hkv f
    · intro hname
      rw [hname]
      exact fieldOf_name f
  by_cases hname : kv.1 = f.name
  · simp [hname, fieldOf_name f]
  · have hother : ¬ fieldOf kv.1 = some f := fun h => hname (hiff.mp h)
    simp [hother, hname, Option.guard]

variable {cast : Json.FloatCast} {values : List (String × Json)}
  (hvalues : List.Forall₂ (CS.FieldRel (Json.Reads cast)) fields values)
include hvalues

/-- A number that both accept is the same number, if the module's type has it. -/
theorem number_eq_decodeNumber (f : PolicyField) {get : Json → Option Int}
    (hget : ∀ n, CS.lastValue fields f.name = some (.int n) → -2 ^ 63 ≤ n → n < 2 ^ 63 →
      (Json.ofDoc cast (.int n)).bind get = some n) {a b : Int}
    (ha : KeyPolicy.number (CS.toMap values) f.name get = some a)
    (hb : decodeNumber f fields = some b) : a = b := by
  rw [KeyPolicy.number_eq hvalues, KeyPolicy.given] at ha
  rw [decodeNumber, valuesFor_eq hplain] at hb
  cases hlast : CS.lastValue fields f.name with
  | none =>
    rw [hlast] at ha hb
    exact (Option.some.inj ha).symm.trans (Option.some.inj hb)
  | some v =>
    rw [hlast, Option.toList_some, List.foldlM_cons] at hb
    rw [hlast] at ha
    cases v with
    | null => exact (Option.some.inj ha).symm.trans (Option.some.inj hb)
    | int n =>
      obtain ⟨m, hm, hb⟩ := Option.bind_eq_some_iff.mp hb
      rw [decodeInt] at hm
      split_ifs at hm with hrange
      cases hm
      obtain rfl := Option.some.inj hb
      have hsame := hget n hlast hrange.1 hrange.2
      exact Option.mem_unique ha hsame
    | _ => cases hb

omit hplain hvalues in
theorem eq_map_str_of_decodeElems {elems : List JsonDoc} {ss : List String}
    (hnull : JsonDoc.null ∉ elems) (h : decodeElems elems [] = some ss) : elems = ss.map .str := by
  induction elems generalizing ss with
  | nil =>
    cases h
    rfl
  | cons v vs ih =>
    obtain ⟨s, hs, h⟩ := Option.bind_eq_some_iff.mp h
    obtain ⟨rest, hrest, h⟩ := Option.bind_eq_some_iff.mp h
    cases h
    rw [ih (fun hmem => hnull (List.mem_cons_of_mem v hmem)) hrest, List.map_cons]
    cases v with
    | str t =>
      cases hs
      rfl
    | null => exact absurd List.mem_cons_self hnull
    | _ => cases hs

omit hplain hvalues in
theorem ofDocs_map_str (ss : List String) :
    Json.ofDocs cast (ss.map .str) = some (ss.map .str) := by
  induction ss with
  | nil => rfl
  | cons s ss ih =>
    rw [List.map_cons, Json.ofDocs, ih]
    rfl

/-- A list that both accept is the same list, if it has no null elements. -/
theorem strings_eq_decodeStrings (f : PolicyField)
    (hnull : ∀ elems, CS.lastValue fields f.name = some (.arr elems) → JsonDoc.null ∉ elems)
    {names : List String} (h : decodeStrings f fields = some names) :
    KeyPolicy.strings (CS.toMap values) f.name = names := by
  rw [decodeStrings, valuesFor_eq hplain] at h
  rw [KeyPolicy.strings_eq hvalues, KeyPolicy.given]
  cases hlast : CS.lastValue fields f.name with
  | none =>
    rw [hlast] at h
    exact Option.some.inj h
  | some v =>
    rw [hlast, Option.toList_some, List.foldlM_cons] at h
    cases v with
    | null => exact Option.some.inj h
    | arr elems =>
      obtain ⟨slice, hslice, rfl⟩ := Option.map_eq_some_iff.mp h
      obtain ⟨slice', hslice', hrest⟩ := Option.bind_eq_some_iff.mp hslice
      cases hrest
      cases elems with
      | nil =>
        cases hslice'
        rfl
      | cons e es =>
        obtain ⟨mem, hmem, rfl⟩ := Option.map_eq_some_iff.mp hslice'
        have helems := eq_map_str_of_decodeElems (hnull _ hlast) hmem
        change ((Json.ofDoc cast (.arr (e :: es))).map fun w =>
          w.elements.filterMap Json.string?).getD [] = mem.take (e :: es).length
        rw [helems, List.length_map, List.take_length, Json.ofDoc, ofDocs_map_str]
        change (mem.map Json.str).filterMap Json.string? = mem
        rw [List.filterMap_map]
        exact List.filterMap_some
    | _ => cases h

end Plain

/-! ### Agreement -/

/-- From a plain document both read the same policy. -/
theorem eq_of_plain {parser : JsonParser} {cast : Json.FloatCast} {text : String} {p q : KeyPolicy}
    (hplain : Plain (KeyPolicy.docFields parser text))
    (hp : KeyPolicy.fromText parser cast text = some p)
    (hq : (parser.parse text).bind unmarshal = some q) : p = q := by
  obtain ⟨values, hvalues, hjson⟩ := KeyPolicy.exists_values_of_fromText hp
  obtain ⟨doc, hdoc, hq⟩ := Option.bind_eq_some_iff.mp hq
  rw [KeyPolicy.docFields, hdoc] at hplain hvalues
  cases doc with
  | null =>
    obtain rfl := List.forall₂_nil_left_iff.mp hvalues
    exact (Option.some.inj hjson).symm.trans (Option.some.inj hq)
  | obj fields =>
    change Plain fields at hplain
    change List.Forall₂ _ fields values at hvalues
    obtain ⟨hmechs, hbefore, hafter, hsigners, hquorum⟩ := KeyPolicy.fromJson_eq_some hjson
    obtain ⟨mechs, hmechs', hq⟩ := Option.bind_eq_some_iff.mp hq
    obtain ⟨notBefore, hbefore', hq⟩ := Option.bind_eq_some_iff.mp hq
    obtain ⟨notAfter, hafter', hq⟩ := Option.bind_eq_some_iff.mp hq
    obtain ⟨signers, hsigners', hq⟩ := Option.bind_eq_some_iff.mp hq
    obtain ⟨quorum, hquorum', hq⟩ := Option.bind_eq_some_iff.mp hq
    cases hq
    -- Times have 64 bits on both sides, the quorum only in the contract.
    have hint64 (n : Int) (hlow : -2 ^ 63 ≤ n) (hhigh : n < 2 ^ 63) :
        (Json.ofDoc cast (.int n)).bind Json.getInt64 = some n := Json.getInt64_ofDoc hlow hhigh
    have hmechs'' : p.allowedMechanisms = mechs :=
      hmechs.trans (strings_eq_decodeStrings hplain hvalues .allowedMechanisms hplain.mechanisms
        hmechs')
    have hsigners'' : p.allowedSigners = signers :=
      hsigners.trans (strings_eq_decodeStrings hplain hvalues .allowedSigners hplain.signers
        hsigners')
    have hbefore'' : p.notBeforeMs = notBefore :=
      number_eq_decodeNumber hplain hvalues .notBeforeMs (fun n _ => hint64 n) hbefore hbefore'
    have hafter'' : p.notAfterMs = notAfter :=
      number_eq_decodeNumber hplain hvalues .notAfterMs (fun n _ => hint64 n) hafter hafter'
    have hquorum'' : p.minAttestations = quorum := by
      refine number_eq_decodeNumber hplain hvalues .minAttestations ?_ hquorum hquorum'
      intro n hlast _ _
      obtain ⟨hlow, hhigh⟩ := hplain.quorum n hlast
      exact Json.getInt_ofDoc hlow hhigh
    rw [← hmechs'', ← hsigners'', ← hbefore'', ← hafter'', ← hquorum'']
  | _ => cases hq

theorem getPolicy_publishKey {tx : Tx} {keyId : String} {policy : Option KeyPolicy}
    {st st' : State} (h : publishKey tx keyId policy st = .ok st') :
    ∃ q, policy = some q ∧ getPolicy st' keyId = .ok (some q) := by
  have hwrites := @submit_writes st st' tx (.publishKey keyId policy) h
  cases hwrites with
  | policy keyId q client hclient =>
    refine ⟨q, rfl, ?_⟩
    simp only [getPolicy, putState, Function.update_self, Value.asPolicy]

/-- When both accept the text, the module admits a request exactly if the contract does, which gets
the time in decimal. -/
def EnginesAgree (parser : JsonParser) (cast : Json.FloatCast) (text : String) : Prop :=
  ∀ (p : KeyPolicy) (tx : Tx) (keyId : String) (st st' : State) (actor mechanism : String)
    (nowMs : Int) (n : Nat), KeyPolicy.fromText parser cast text = some p →
    publishKey tx keyId ((parser.parse text).bind unmarshal) st = .ok st' →
    -2 ^ 63 ≤ nowMs → nowMs < 2 ^ 63 → n < 2 ^ 31 →
    (p.evaluate actor mechanism nowMs n = .ok () ↔
      ∃ q, getPolicy st' keyId = .ok (some q) ∧
        (evaluatePolicyAt q actor mechanism (toString nowMs) n).1 = true)

/-- Two policies that are read from one text and differ on a request. -/
theorem not_enginesAgree {parser : JsonParser} {cast : Json.FloatCast} {text : String}
    {p q : KeyPolicy} (hp : KeyPolicy.fromText parser cast text = some p)
    (hq : (parser.parse text).bind unmarshal = some q) {actor mechanism : String}
    (hmodule : p.evaluate actor mechanism 0 0 = .ok ())
    (hcontract : ¬ q.Admits actor mechanism 0 0) : ¬ EnginesAgree parser cast text := by
  intro hagree
  have hpublish : publishKey (sentBy "x") "k" ((parser.parse text).bind unmarshal) genesis =
      .ok (putState genesis (policyKey "k") (.policy q)) := by
    rw [hq]
    rfl
  obtain ⟨q', hq', hok⟩ := (hagree p (sentBy "x") "k" genesis _ actor mechanism 0 0 hp hpublish
    (by decide) (by decide) (by decide)).mp hmodule
  obtain ⟨q'', hsome, hstored⟩ := getPolicy_publishKey hpublish
  obtain rfl : q'' = q' := Option.some.inj (Except.ok.inj (hstored.symm.trans hq'))
  obtain rfl : q'' = q := Option.mem_unique hsome hq
  rw [evaluatePolicyAt, scanInt64_toString (by decide) (by decide), Option.getD_some,
    evaluatePolicy_iff] at hok
  exact hcontract hok

/-! ### A quorum that is no `int`, a capital letter and a null -/

open KeyPolicy (parserOf fromText docFields)

/-- A signer and a quorum. -/
def signerText : String := "\x7b\"allowed_signers\": [\"alice\"], \"min_attestations\": 2\x7d"

def signerParser : JsonParser :=
  parserOf signerText
    (.obj [("allowed_signers", .arr [.str "alice"]), ("min_attestations", .int 2)]) (by decide)

/-- Three texts that both accept. -/
def quorumText : String := "\x7b\"min_attestations\": 4294967296\x7d"

def capitalText : String := "\x7b\"Allowed_Signers\": [\"alice\"]\x7d"

def nullText : String := "\x7b\"allowed_signers\": [null]\x7d"

end SignatureLedger

end VirtualHsm
