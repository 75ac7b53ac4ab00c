import Mathlib.Data.Int.Basic
import VirtualHsm.Pkcs11.Types

/-!
# Key policies

A key policy restricts who may sign with a key, with which mechanisms and when, and how many
attestations it takes. It is read from a JSON document; parsing the text is the JSON library's
work, so a document is a `Json` value here.
-/

namespace VirtualHsm

/-- A JSON value. A number with a fraction or an exponent is given by the integer that the cast
to an integer type yields. -/
inductive Json
  | null
  | bool (b : Bool)
  | int (n : Int)
  | float (truncated : Int)
  | str (s : String)
  | arr (elems : List Json)
  | obj (fields : List (String × Json))

namespace Json

/-- What a range-based loop visits: the elements, the field values, or the value itself. -/
def elements : Json → List Json
  | null => []
  | arr elems => elems
  | obj fields => fields.map (·.2)
  | v => [v]

def string? : Json → Option String
  | str s => some s
  | _ => none

/-- `get<int64_t>`: integers wrap, everything but a number throws. -/
def getInt64 : Json → Option Int
  | int n => some (n.bmod (2 ^ 64))
  | float t => some t
  | _ => none

/-- `get<int>`: as for 64 bits, but truth values convert. -/
def getInt : Json → Option Int
  | int n => some (n.bmod (2 ^ 32))
  | float t => some t
  | bool b => some (if b then 1 else 0)
  | _ => none

/-- The fields of an object; anything else is refused. -/
def fields? : Json → Option (List (String × Json))
  | obj fields => some fields
  | _ => none

/-- A field that is present and not null. -/
def field (fields : List (String × Json)) (name : String) : Option Json :=
  match fields.lookup name with
  | some null => none
  | v => v

end Json

/-- A policy. Empty lists and zero bounds do not restrict. -/
structure KeyPolicy where
  allowedMechanisms : List String := []
  notBeforeMs : Int := 0
  notAfterMs : Int := 0
  allowedSigners : List String := []
  minAttestations : Int := 0
  deriving DecidableEq, Repr

namespace KeyPolicy

/-- The strings among the elements of a field; other elements are skipped. -/
def strings (fields : List (String × Json)) (name : String) : List String :=
  match Json.field fields name with
  | some v => v.elements.filterMap Json.string?
  | none => []

/-- A numeric field; zero when it is missing, refused when it is not a number. -/
def number (fields : List (String × Json)) (name : String) (get : Json → Option Int) : Option Int :=
  match Json.field fields name with
  | some v => get v
  | none => some 0

/-- `KeyPolicy::from_json` on a parsed document. -/
def fromJson (doc : Json) : Option KeyPolicy := do
  let fields ← doc.fields?
  let notBeforeMs ← number fields "not_before_ms" Json.getInt64
  let notAfterMs ← number fields "not_after_ms" Json.getInt64
  let minAttestations ← number fields "min_attestations" Json.getInt
  return { allowedMechanisms := strings fields "allowed_mechanisms"
           notBeforeMs, notAfterMs
           allowedSigners := strings fields "allowed_signers"
           minAttestations }

variable (p : KeyPolicy)

/-! ### The parts of a policy -/

/-- The time lies in the signing window. -/
def WindowOk (nowMs : Int) : Prop :=
  ¬ (p.notBeforeMs ≠ 0 ∧ nowMs < p.notBeforeMs) ∧ ¬ (p.notAfterMs ≠ 0 ∧ p.notAfterMs < nowMs)

/-- The list is empty or has the name. -/
def Listed (names : List String) (name : String) : Prop := names = [] ∨ name ∈ names

def MechanismOk (mechanism : String) : Prop := Listed p.allowedMechanisms mechanism

def SignerOk (actor : String) : Prop := Listed p.allowedSigners actor

instance (nowMs : Int) : Decidable (p.WindowOk nowMs) :=
  inferInstanceAs (Decidable (_ ∧ _))

instance (names : List String) (name : String) : Decidable (Listed names name) :=
  inferInstanceAs (Decidable (_ ∨ _))

instance (mechanism : String) : Decidable (p.MechanismOk mechanism) :=
  inferInstanceAs (Decidable (Listed _ _))

instance (actor : String) : Decidable (p.SignerOk actor) :=
  inferInstanceAs (Decidable (Listed _ _))

/-- The document admits the actor, the mechanism and the time, with enough attestations. -/
structure Admits (actor mechanism : String) (nowMs : Int) (attestations : Nat) : Prop where
  window : p.WindowOk nowMs
  mechanism : p.MechanismOk mechanism
  signer : p.SignerOk actor
  quorum : p.minAttestations ≤ attestations

/-! ### Evaluation -/

/-- `KeyPolicy::evaluate`; an error carries the reason. The count is cast to an `int`. -/
def evaluate (actor mechanism : String) (nowMs : Int) (attestationCount : Nat) :
    Except String Unit :=
  if p.notBeforeMs ≠ 0 ∧ nowMs < p.notBeforeMs then
    .error "key policy: signing not yet active (not_before in the future)"
  else if p.notAfterMs ≠ 0 ∧ p.notAfterMs < nowMs then
    .error "key policy: signing window has expired (not_after passed)"
  else if ¬ p.MechanismOk mechanism then
    .error ("key policy: mechanism " ++ mechanism ++ " not permitted")
  else if ¬ p.SignerOk actor then
    .error ("key policy: actor " ++ actor ++ " not authorized to sign")
  -- From 2 ^ 31 attestations on, the cast makes the count negative.
  else if (attestationCount : Int).bmod (2 ^ 32) < p.minAttestations then
    .error ("key policy: insufficient attestations (" ++ toString attestationCount ++ " < " ++
      toString p.minAttestations ++ " required)")
  else .ok ()

variable {p}

theorem bmod_le (n : Nat) : (n : Int).bmod (2 ^ 32) ≤ n := by
  have hmod := Int.bmod_lt (x := n) (m := 2 ^ 32) (by decide)
  rw [Int.bmod_def]
  split_ifs <;> omega

theorem evaluate_eq_ok {actor mechanism : String} {nowMs : Int} {n : Nat}
    (h : p.evaluate actor mechanism nowMs n = .ok ()) : p.Admits actor mechanism nowMs n := by
  unfold evaluate at h
  split_ifs at h with hbefore hafter hmech hsigner hquorum
  exact ⟨⟨hbefore, hafter⟩, hmech, hsigner, Int.le_trans (Int.not_lt.mp hquorum) (bmod_le n)⟩

/-- For a count that is an `int` it checks nothing else. -/
theorem evaluate_eq_ok_iff {actor mechanism : String} {nowMs : Int} {n : Nat} (hn : n < 2 ^ 31) :
    p.evaluate actor mechanism nowMs n = .ok () ↔ p.Admits actor mechanism nowMs n := by
  constructor
  · exact evaluate_eq_ok
  · intro h
    have hcast : (n : Int).bmod (2 ^ 32) = n := Int.bmod_eq_of_le (by omega) (by omega)
    rw [evaluate, if_neg h.window.1, if_neg h.window.2, if_neg (not_not.mpr h.mechanism),
      if_neg (not_not.mpr h.signer), hcast, if_neg (Int.not_lt.mpr h.quorum)]

end KeyPolicy

end VirtualHsm
