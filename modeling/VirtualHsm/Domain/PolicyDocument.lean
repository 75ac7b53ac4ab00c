import Mathlib.Algebra.Group.Int.Defs
import VirtualHsm.CS.JsonDocument
import VirtualHsm.Domain.KeyPolicy

/-!
# Policy documents

A policy comes as a text. The JSON library makes a value of the document, with the last of repeated
fields and with numbers that fit into 64 bits or are rounded, and the policy is read from that
value.

An element of a list that is not a string is skipped, and the quorum is cut to an `int`. A list of
which nothing is left does not restrict anybody, and a large quorum may become a small one.
Whatever else the document says is kept: if a string is left of each list and the quorum fits, the
policy admits nobody whom the document does not name, and asks for all attestations.
-/

open CS (JsonDoc JsonParser)

namespace VirtualHsm

/-! ### Values -/

namespace Json

/-- What the library makes of a number that it keeps as a `double`, after the cast to an integer
type; nothing when it overflows. The document is refused then. -/
abbrev FloatCast := Int → Int → Option Int

section OfDoc

variable (cast : FloatCast)

mutual

/-- `nlohmann::json::parse`, after the syntax. -/
def ofDoc : JsonDoc → Option Json
  | .null => some .null
  | .bool b => some (.bool b)
  | .int n =>
    -- Signed numbers have 64 bits, and so have unsigned ones.
    if -2 ^ 63 ≤ n ∧ n < 2 ^ 64 then some (.int n) else (cast n 0).map .float
  | .real m e => (cast m e).map .float
  | .str s => some (.str s)
  | .arr elems => (ofDocs elems).map .arr
  | .obj fields => (ofFields fields).map fun fs => .obj (CS.toMap fs)

def ofDocs : List JsonDoc → Option (List Json)
  | [] => some []
  | v :: vs => (ofDoc v).bind fun w => (ofDocs vs).map (w :: ·)

def ofField : String × JsonDoc → Option (String × Json)
  | (k, v) => (ofDoc v).map fun w => (k, w)

def ofFields : List (String × JsonDoc) → Option (List (String × Json))
  | [] => some []
  | f :: fs => (ofField f).bind fun g => (ofFields fs).map (g :: ·)

end

end OfDoc

variable {cast : FloatCast}

/-- A document and its value. -/
def Reads (cast : FloatCast) (v : JsonDoc) (w : Json) : Prop := ofDoc cast v = some w

theorem forall₂_of_ofDocs {vs : List JsonDoc} {ws : List Json} (h : ofDocs cast vs = some ws) :
    List.Forall₂ (Reads cast) vs ws := by
  induction vs generalizing ws with
  | nil =>
    cases h
    exact .nil
  | cons v vs ih =>
    obtain ⟨w, hw, hrest⟩ := Option.bind_eq_some_iff.mp h
    obtain ⟨ws, hws, rfl⟩ := Option.map_eq_some_iff.mp hrest
    exact .cons hw (ih hws)

theorem forall₂_of_ofFields {fs : List (String × JsonDoc)} {gs : List (String × Json)}
    (h : ofFields cast fs = some gs) : List.Forall₂ (CS.FieldRel (Reads cast)) fs gs := by
  induction fs generalizing gs with
  | nil =>
    cases h
    exact .nil
  | cons f fs ih =>
    obtain ⟨k, v⟩ := f
    obtain ⟨g, hg, hrest⟩ := Option.bind_eq_some_iff.mp h
    obtain ⟨gs, hgs, rfl⟩ := Option.map_eq_some_iff.mp hrest
    obtain ⟨w, hw, rfl⟩ := Option.map_eq_some_iff.mp hg
    exact .cons ⟨rfl, hw⟩ (ih hgs)

theorem reads_str_iff {v : JsonDoc} {s : String} : Reads cast v (.str s) ↔ v = .str s := by
  unfold Reads
  cases v with
  | str t => simp [ofDoc]
  | int n =>
    rw [ofDoc]
    split_ifs <;> simp
  | _ => simp [ofDoc]

theorem getInt64_ofDoc {n : Int} (hlow : -2 ^ 63 ≤ n) (hhigh : n < 2 ^ 63) :
    (ofDoc cast (.int n)).bind getInt64 = some n := by
  rw [ofDoc, if_pos ⟨hlow, by omega⟩]
  exact congrArg some (Int.bmod_eq_of_le (by omega) (by omega))

theorem getInt_ofDoc {n : Int} (hlow : -2 ^ 31 ≤ n) (hhigh : n < 2 ^ 31) :
    (ofDoc cast (.int n)).bind getInt = some n := by
  rw [ofDoc, if_pos ⟨by omega, by omega⟩]
  exact congrArg some (Int.bmod_eq_of_le (by omega) (by omega))

theorem exists_fields_of_reads {v : JsonDoc} {map : List (String × Json)}
    (h : Reads cast v (.obj map)) :
    ∃ fields values, v = .obj fields ∧ List.Forall₂ (CS.FieldRel (Reads cast)) fields values ∧
      map = CS.toMap values := by
  unfold Reads at h
  cases v with
  | obj fields =>
    obtain ⟨values, hvalues, hmap⟩ := Option.map_eq_some_iff.mp h
    exact ⟨fields, values, rfl, forall₂_of_ofFields hvalues, (Json.obj.inj hmap).symm⟩
  | int n =>
    rw [ofDoc] at h
    split_ifs at h <;> simp at h
  | _ => simp [ofDoc] at h

theorem reads_null_iff {v : JsonDoc} : Reads cast v .null ↔ v = .null := by
  unfold Reads
  cases v with
  | null => simp [ofDoc]
  | int n =>
    rw [ofDoc]
    split_ifs <;> simp
  | _ => simp [ofDoc]

end Json

namespace KeyPolicy

open Json (FloatCast Reads)

/-! ### Documents -/

/-- `KeyPolicy::from_json`. The empty text is a policy without restrictions. -/
def fromText (parser : JsonParser) (cast : FloatCast) (text : String) : Option KeyPolicy :=
  if text = "" then some {}
  else do
    let doc ← parser.parse text
    let value ← Json.ofDoc cast doc
    fromJson value

/-- The fields that a text has, when it is an object. -/
def docFields (parser : JsonParser) (text : String) : List (String × JsonDoc) :=
  match parser.parse text with
  | some (.obj fields) => fields
  | _ => []

/-- The value of a field that is present and not null. -/
def given (fields : List (String × JsonDoc)) (name : String) : Option JsonDoc :=
  match CS.lastValue fields name with
  | some .null => none
  | v => v

/-- The string is one of those in the value: the value itself, an element, or the value of a
field. -/
def Names (v : JsonDoc) (s : String) : Prop :=
  match v with
  | .str t => t = s
  | .arr elems => JsonDoc.str s ∈ elems
  | .obj fields => ∃ k, (k, JsonDoc.str s) ∈ CS.toMap fields
  | _ => False

/-- The policy admits no actor and no mechanism that the document does not name, when it gives a
value that is not an empty list, and does not go below the document's quorum. -/
structure NeverWidens (fields : List (String × JsonDoc)) (p : KeyPolicy) : Prop where
  signers : ∀ v, given fields "allowed_signers" = some v → v ≠ .arr [] →
    ∀ actor mechanism nowMs n, p.evaluate actor mechanism nowMs n = .ok () → Names v actor
  mechanisms : ∀ v, given fields "allowed_mechanisms" = some v → v ≠ .arr [] →
    ∀ actor mechanism nowMs n, p.evaluate actor mechanism nowMs n = .ok () → Names v mechanism
  quorum : ∀ q, given fields "min_attestations" = some (.int q) → 0 < q →
    ∀ actor mechanism nowMs n, p.evaluate actor mechanism nowMs n = .ok () → q ≤ (n : Nat)

/-- There is a string in every value for a list, and the quorum is an `int`. -/
structure Readable (fields : List (String × JsonDoc)) : Prop where
  signers : ∀ v, given fields "allowed_signers" = some v → v ≠ .arr [] → ∃ s, Names v s
  mechanisms : ∀ v, given fields "allowed_mechanisms" = some v → v ≠ .arr [] → ∃ s, Names v s
  quorum : ∀ q, given fields "min_attestations" = some (.int q) → 0 < q → q < 2 ^ 31

/-! ### Reading -/

section Reading

variable {parser : JsonParser} {cast : FloatCast} {fields : List (String × JsonDoc)}
  {values : List (String × Json)}

theorem exists_values_of_fromText {text : String} {p : KeyPolicy}
    (h : fromText parser cast text = some p) :
    ∃ values, List.Forall₂ (CS.FieldRel (Reads cast)) (docFields parser text) values ∧
      fromJson (.obj (CS.toMap values)) = some p := by
  rw [fromText] at h
  by_cases hempty : text = ""
  · rw [if_pos hempty] at h
    cases h
    refine ⟨[], ?_, rfl⟩
    rw [docFields, hempty, parser.parse_empty]
    exact .nil
  · rw [if_neg hempty] at h
    obtain ⟨doc, hdoc, h⟩ := Option.bind_eq_some_iff.mp h
    obtain ⟨value, hvalue, h⟩ := Option.bind_eq_some_iff.mp h
    -- Only an object is read, and only an object becomes one.
    obtain ⟨map, hmap, -⟩ := Option.bind_eq_some_iff.mp h
    cases value with
    | obj map' =>
      obtain ⟨fields, values, rfl, hvalues, rfl⟩ := Json.exists_fields_of_reads hvalue
      rw [docFields, hdoc]
      exact ⟨values, hvalues, h⟩
    | _ => cases hmap

theorem mem_filterMap_string {s : String} {ws : List Json} :
    s ∈ ws.filterMap Json.string? ↔ Json.str s ∈ ws := by
  rw [List.mem_filterMap]
  constructor
  · rintro ⟨w, hw, hs⟩
    cases w with
    | str t =>
      cases hs
      exact hw
    | _ => cases hs
  · intro hs
    exact ⟨_, hs, rfl⟩

theorem mem_elements_iff {v : JsonDoc} {w : Json} (hread : Reads cast v w) (s : String) :
    s ∈ w.elements.filterMap Json.string? ↔ Names v s := by
  rw [mem_filterMap_string]
  cases v with
  | null | bool b =>
    cases hread
    simp [Json.elements, Names]
  | int n =>
    rw [Reads, Json.ofDoc] at hread
    split_ifs at hread
    · cases hread
      simp [Json.elements, Names]
    · obtain ⟨t, -, rfl⟩ := Option.map_eq_some_iff.mp hread
      simp [Json.elements, Names]
  | real m e =>
    obtain ⟨t, -, rfl⟩ := Option.map_eq_some_iff.mp hread
    simp [Json.elements, Names]
  | str t =>
    cases hread
    simp [Json.elements, Names, eq_comm]
  | arr elems =>
    obtain ⟨ws, hws, rfl⟩ := Option.map_eq_some_iff.mp hread
    have hrel := Json.forall₂_of_ofDocs hws
    constructor
    · intro hmem
      obtain ⟨v, hv, hvs⟩ := CS.exists_mem_left hrel hmem
      obtain rfl := Json.reads_str_iff.mp hvs
      exact hv
    · intro hmem
      obtain ⟨w, hw, hsw⟩ := CS.exists_mem_right hrel hmem
      exact Option.some.inj hsw ▸ hw
  | obj fields =>
    obtain ⟨values, hvalues, rfl⟩ := Option.map_eq_some_iff.mp hread
    have hrel := CS.forall₂_toMap (Json.forall₂_of_ofFields hvalues)
    constructor
    · intro hmem
      obtain ⟨⟨k, w⟩, hw, rfl⟩ := List.mem_map.mp hmem
      obtain ⟨⟨k', v⟩, hv, rfl, hvs⟩ := CS.exists_mem_left hrel hw
      obtain rfl := Json.reads_str_iff.mp hvs
      exact ⟨k', hv⟩
    · rintro ⟨k, hmem⟩
      obtain ⟨⟨k', w⟩, hw, rfl, hsw⟩ := CS.exists_mem_right hrel hmem
      refine List.mem_map.mpr ⟨_, hw, ?_⟩
      exact (Option.some.inj hsw).symm

variable (hvalues : List.Forall₂ (CS.FieldRel (Reads cast)) fields values)
include hvalues

theorem given_rel (name : String) :
    Option.Rel (Reads cast) (given fields name) (Json.field (CS.toMap values) name) := by
  have hrel := CS.lookup_of_forall₂ (CS.forall₂_toMap hvalues) name
  rw [CS.lookup_toMap] at hrel
  rw [given, Json.field]
  generalize CS.lastValue fields name = a at hrel ⊢
  generalize (CS.toMap values).lookup name = b at hrel ⊢
  cases hrel with
  | none => exact .none
  | @some v w hread =>
    by_cases hnull : v = .null
    · subst hnull
      cases hread
      exact .none
    · have hsome : Option.Rel (Reads cast) (some v) (some w) := .some hread
      cases w with
      | null => exact absurd (Json.reads_null_iff.mp hread) hnull
      | _ =>
        cases v with
        | null => exact absurd rfl hnull
        | _ => exact hsome

theorem strings_eq (name : String) :
    strings (CS.toMap values) name =
      match given fields name with
      | some v => ((Json.ofDoc cast v).map fun w => w.elements.filterMap Json.string?).getD []
      | none => [] := by
  have hrel := given_rel hvalues name
  rw [strings]
  generalize given fields name = a at hrel ⊢
  generalize Json.field (CS.toMap values) name = b at hrel ⊢
  cases hrel with
  | none => rfl
  | @some v w hread =>
    change w.elements.filterMap Json.string? =
      ((Json.ofDoc cast v).map fun w => w.elements.filterMap Json.string?).getD []
    rw [show Json.ofDoc cast v = some w from hread]
    rfl

theorem mem_strings_iff (name s : String) :
    s ∈ strings (CS.toMap values) name ↔ ∃ v, given fields name = some v ∧ Names v s := by
  have hrel := given_rel hvalues name
  rw [strings]
  generalize given fields name = a at hrel ⊢
  generalize Json.field (CS.toMap values) name = b at hrel ⊢
  cases hrel with
  | none => simp
  | @some v w hread =>
    rw [mem_elements_iff hread]
    constructor
    · intro hs
      exact ⟨v, rfl, hs⟩
    · rintro ⟨v', hv', hs⟩
      exact Option.some.inj hv' ▸ hs

theorem number_eq (name : String) (get : Json → Option Int) :
    number (CS.toMap values) name get =
      match given fields name with
      | some v => (Json.ofDoc cast v).bind get
      | none => some 0 := by
  have hrel := given_rel hvalues name
  rw [number]
  generalize given fields name = a at hrel ⊢
  generalize Json.field (CS.toMap values) name = b at hrel ⊢
  cases hrel with
  | none => rfl
  | @some v w hread =>
    change get w = (Json.ofDoc cast v).bind get
    rw [show Json.ofDoc cast v = some w from hread]
    rfl

end Reading

/-- The parts of a policy that is read from values. -/
theorem fromJson_eq_some {map : List (String × Json)} {p : KeyPolicy}
    (h : fromJson (.obj map) = some p) :
    p.allowedMechanisms = strings map "allowed_mechanisms" ∧
      number map "not_before_ms" Json.getInt64 = some p.notBeforeMs ∧
      number map "not_after_ms" Json.getInt64 = some p.notAfterMs ∧
      p.allowedSigners = strings map "allowed_signers" ∧
      number map "min_attestations" Json.getInt = some p.minAttestations := by
  change (do
    let notBeforeMs ← number map "not_before_ms" Json.getInt64
    let notAfterMs ← number map "not_after_ms" Json.getInt64
    let minAttestations ← number map "min_attestations" Json.getInt
    return { allowedMechanisms := strings map "allowed_mechanisms"
             notBeforeMs, notAfterMs
             allowedSigners := strings map "allowed_signers"
             minAttestations }) = some p at h
  obtain ⟨notBefore, hbefore, h⟩ := Option.bind_eq_some_iff.mp h
  obtain ⟨notAfter, hafter, h⟩ := Option.bind_eq_some_iff.mp h
  obtain ⟨quorum, hquorum, h⟩ := Option.bind_eq_some_iff.mp h
  cases h
  exact ⟨rfl, hbefore, hafter, rfl, hquorum⟩

/-- A name that a list of strings admits is one of them, when there is any. -/
theorem names_of_listed {fields : List (String × JsonDoc)} {names : List String}
    {field name : String} (hmem : ∀ s, s ∈ names ↔ ∃ v, given fields field = some v ∧ Names v s)
    {v : JsonDoc} (hv : given fields field = some v) (hsome : ∃ s, Names v s)
    (hlisted : Listed names name) : Names v name := by
  rcases hlisted with hnil | hname
  · obtain ⟨s, hs⟩ := hsome
    have hs' : s ∈ names := (hmem s).mpr ⟨v, hv, hs⟩
    rw [hnil] at hs'
    cases hs'
  · obtain ⟨v', hv', hname'⟩ := (hmem name).mp hname
    exact Option.mem_unique hv' hv ▸ hname'

/-- A parser that knows one text. -/
def parserOf (text : String) (doc : JsonDoc) (htext : text ≠ "") : JsonParser where
  parse t := if t = text then some doc else none
  parse_empty := if_neg htext.symm

/-- Two names and a quorum. -/
def plainDoc : JsonDoc :=
  .obj [("allowed_signers", .arr [.str "alice", .int 7]), ("min_attestations", .int 2)]

def plainText : String := "\x7b\"allowed_signers\": [\"alice\", 7], \"min_attestations\": 2\x7d"

/-- A list without a string. -/
def numbersText : String := "\x7b\"allowed_signers\": [1]\x7d"

def numbersParser : JsonParser :=
  parserOf numbersText (.obj [("allowed_signers", .arr [.int 1])]) (by decide)

/-- A quorum that is no `int`. -/
def largeText : String := "\x7b\"min_attestations\": 4294967297\x7d"

def largeParser : JsonParser :=
  parserOf largeText (.obj [("min_attestations", .int 4294967297)]) (by decide)

end KeyPolicy

end VirtualHsm
