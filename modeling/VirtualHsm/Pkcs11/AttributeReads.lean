import Mathlib.Data.List.Forall2
import VirtualHsm.Pkcs11.Confidentiality

/-!
# Complete attribute reads

`C_GetAttributeValue` goes through its template entry by entry. It reports each length, and writes
a value only to a buffer that has room for it. The code that it returns is that of the last entry
that is refused; a buffer that is too short is not counted among these. So the call can return
`CKR_OK` without having written what was asked for.
-/

namespace VirtualHsm

namespace HsmObject

variable (o : HsmObject) (a : CkAttribute) (r : AttributeAnswer)

/-- The attribute is readable, and a buffer for it starts with its whole value. -/
def Delivers : Prop :=
  ∃ v, o.attributeValue a.type = .ok v ∧
    ∀ old, a.value = .data old → ∃ rest, r.buf = .data (v ++ rest)

/-- The length is that of the value, or says that there is none. -/
def ReportsLength : Prop :=
  r.len = ckUnavailableInformation ∨ ∃ v, o.attributeValue a.type = .ok v ∧ r.len = v.length

/-- A buffer for the attribute has room for its value. -/
def Roomy : Prop :=
  ∀ old v, a.value = .data old → o.attributeValue a.type = .ok v → v.length ≤ old.length

end HsmObject

/-- The buffer has the length that the caller stated, and nothing is written through a null
pointer. -/
def StaysWithin (a : CkAttribute) (r : HsmObject.AttributeAnswer) : Prop :=
  r.buf.isNull = a.value.isNull ∧ r.buf.len = a.value.len

/-! ### One entry -/

namespace HsmObject

variable {o : HsmObject} {a : CkAttribute}

theorem getAttribute_rv_iff :
    ((o.getAttribute a.type a.value).rv = .ok ∨
        (o.getAttribute a.type a.value).rv = .bufferTooSmall) ↔
      ∃ v, o.attributeValue a.type = .ok v := by
  cases hvalue : o.attributeValue a.type with
  | error rv =>
    rw [getAttribute_of_error hvalue]
    rcases attributeValue_error hvalue with rfl | rfl <;> simp
  | ok v =>
    refine iff_of_true ?_ ⟨v, rfl⟩
    cases hbuf : a.value with
    | null n => exact .inl (by rw [getAttribute_of_ok_null hvalue])
    | data old =>
      rw [getAttribute_of_ok_data hvalue]
      split_ifs
      · exact .inr rfl
      · exact .inl rfl

theorem delivers_iff :
    o.Delivers a (o.getAttribute a.type a.value) ↔
      (∃ v, o.attributeValue a.type = .ok v) ∧ o.Roomy a := by
  constructor
  · rintro ⟨v, hvalue, hwritten⟩
    refine ⟨⟨v, hvalue⟩, fun old w hbuf hw => ?_⟩
    obtain rfl : v = w := Except.ok.inj (hvalue.symm.trans hw)
    obtain ⟨rest, hrest⟩ := hwritten old hbuf
    rw [hbuf, getAttribute_of_ok_data hvalue] at hrest
    split_ifs at hrest with hshort
    · -- A short buffer is left as it was, so it cannot start with the value.
      have hlen := congrArg List.length (CkBuf.data.inj hrest)
      rw [List.length_append] at hlen
      omega
    · exact Nat.not_lt.mp hshort
  · rintro ⟨⟨v, hvalue⟩, hroomy⟩
    refine ⟨v, hvalue, fun old hbuf => ⟨old.drop v.length, ?_⟩⟩
    rw [hbuf, getAttribute_of_ok_data hvalue, if_neg (Nat.not_lt.mpr (hroomy old v hbuf hvalue))]

theorem staysWithin_getAttribute : StaysWithin a (o.getAttribute a.type a.value) := by
  cases hvalue : o.attributeValue a.type with
  | error rv =>
    rw [getAttribute_of_error hvalue]
    exact ⟨rfl, rfl⟩
  | ok v =>
    cases hbuf : a.value with
    | null n =>
      rw [getAttribute_of_ok_null hvalue, StaysWithin, hbuf]
      exact ⟨rfl, rfl⟩
    | data old =>
      rw [getAttribute_of_ok_data hvalue, StaysWithin, hbuf]
      split_ifs with hshort
      · exact ⟨rfl, rfl⟩
      · refine ⟨rfl, ?_⟩
        rw [CkBuf.len_data, CkBuf.len_data, List.length_append, List.length_drop]
        omega

theorem reportsLength_getAttribute : o.ReportsLength a (o.getAttribute a.type a.value) := by
  cases hvalue : o.attributeValue a.type with
  | error rv => exact .inl (by rw [getAttribute_of_error hvalue])
  | ok v =>
    refine .inr ⟨v, hvalue, ?_⟩
    cases a.value with
    | null n => rw [getAttribute_of_ok_null hvalue]
    | data old =>
      rw [getAttribute_of_ok_data hvalue]
      split_ifs <;> rfl

end HsmObject

/-! ### The whole call -/

namespace Hsm

theorem readCode_eq_ok_iff (entries : List HsmObject.AttributeAnswer) :
    readCode entries = .ok ↔ ∀ r ∈ entries, r.rv = .ok ∨ r.rv = .bufferTooSmall := by
  -- A refusal is never taken back by a later entry, so the start value is part of the induction.
  have hloop : ∀ (entries : List HsmObject.AttributeAnswer) (rv : CkRv),
      entries.foldl (fun rv r => if r.rv ≠ .ok ∧ r.rv ≠ .bufferTooSmall then r.rv else rv) rv =
          .ok ↔
        rv = .ok ∧ ∀ r ∈ entries, r.rv = .ok ∨ r.rv = .bufferTooSmall := by
    intro entries
    induction entries with
    | nil => simp
    | cons r entries ih =>
      intro rv
      rw [List.foldl_cons, ih, List.forall_mem_cons]
      by_cases hrefused : r.rv ≠ .ok ∧ r.rv ≠ .bufferTooSmall
      · rw [if_pos hrefused]
        have hnot : ¬ (r.rv = .ok ∨ r.rv = .bufferTooSmall) := not_or.mpr hrefused
        exact iff_of_false (fun h => hrefused.1 h.1) fun h => hnot h.2.1
      · rw [if_neg hrefused]
        have hread : r.rv = .ok ∨ r.rv = .bufferTooSmall := by
          rwa [← not_or, not_not] at hrefused
        exact and_congr_right fun _ => (and_iff_right hread).symm
  exact (hloop entries .ok).trans (and_iff_right rfl)

section Calls

variable (be : Backend) (env : Env) (hsm : Hsm) (h k : CkUlong) (o : HsmObject)
  (templ : List CkAttribute)

/-- What a call of `C_GetAttributeValue` answers. -/
def readAnswer : Answer := (hsm.api be (.onSession env h (.object (.getAttributeValue k templ)))).1

/-- The call returns `CKR_OK` exactly when every entry was delivered, and in any case it writes
inside of the buffers only and reports every length. -/
structure ReadsComplete : Prop where
  ok_iff : (hsm.readAnswer be env h k templ).rv = .ok ↔
    List.Forall₂ o.Delivers templ (hsm.readAnswer be env h k templ).entries
  within : List.Forall₂ StaysWithin templ (hsm.readAnswer be env h k templ).entries
  lengths : List.Forall₂ o.ReportsLength templ (hsm.readAnswer be env h k templ).entries

end Calls

variable {be : Backend} {env : Env} {hsm : Hsm} {h k : CkUlong} {o : HsmObject}

theorem forall₂_map_answers {R : CkAttribute → HsmObject.AttributeAnswer → Prop}
    {f : CkAttribute → HsmObject.AttributeAnswer} (templ : List CkAttribute) :
    List.Forall₂ R templ (templ.map f) ↔ ∀ a ∈ templ, R a (f a) := by
  rw [List.forall₂_map_right_iff, List.forall₂_same]

/-- A read is complete exactly when some entry cannot be read, or every buffer has room. -/
theorem readsComplete_iff (hinit : hsm.initialized = true) (ho : hsm.getObject h k = some o)
    (templ : List CkAttribute) :
    ReadsComplete be env hsm h k o templ ↔
      ((∀ a ∈ templ, ∃ v, o.attributeValue a.type = .ok v) → ∀ a ∈ templ, o.Roomy a) := by
  have hanswer : hsm.readAnswer be env h k templ =
      { rv := readCode (templ.map fun a => o.getAttribute a.type a.value)
        entries := templ.map fun a => o.getAttribute a.type a.value } := by
    rw [readAnswer, answer_getAttributeValue, hinit, ho]
    rfl
  have hcode : (hsm.readAnswer be env h k templ).rv = .ok ↔
      ∀ a ∈ templ, ∃ v, o.attributeValue a.type = .ok v := by
    rw [hanswer, readCode_eq_ok_iff, List.forall_mem_map]
    exact forall₂_congr fun a _ => HsmObject.getAttribute_rv_iff
  have hdelivers : List.Forall₂ o.Delivers templ (hsm.readAnswer be env h k templ).entries ↔
      ∀ a ∈ templ, (∃ v, o.attributeValue a.type = .ok v) ∧ o.Roomy a := by
    rw [hanswer, forall₂_map_answers]
    exact forall₂_congr fun a _ => HsmObject.delivers_iff
  constructor
  · intro hcomplete hreadable a ha
    exact (hdelivers.mp (hcomplete.ok_iff.mp (hcode.mpr hreadable)) a ha).2
  · intro hroomy
    refine ⟨?_, ?_, ?_⟩
    · rw [hcode, hdelivers]
      exact ⟨fun hreadable a ha => ⟨hreadable a ha, hroomy hreadable a ha⟩,
        fun hboth a ha => (hboth a ha).1⟩
    · rw [hanswer, forall₂_map_answers]
      exact fun a _ => HsmObject.staysWithin_getAttribute
    · rw [hanswer, forall₂_map_answers]
      exact fun a _ => HsmObject.reportsLength_getAttribute

/-- The first session has created an object with the label `abc`. -/
def withLabel : Hsm :=
  (oneSession.api .toy (.onSession {} 1 (.object (.createObject
    [⟨ckaClass, .data (ulongBytes ckoData)⟩, ⟨ckaLabel, .data [97, 98, 99]⟩] true)))).2

/-- The length of the label is asked for, and then there is room for one byte more. -/
theorem readsComplete_withLabel :
    ∃ o, withLabel.getObject 1 1 = some o ∧
      ReadsComplete .toy {} withLabel 1 1 o
        [⟨ckaLabel, .null 0⟩, ⟨ckaLabel, .data [0, 0, 0, 0]⟩] := by
  refine ⟨_, rfl, (readsComplete_iff rfl rfl _).mpr fun _ a ha old v hbuf hvalue => ?_⟩
  simp only [List.mem_cons, List.not_mem_nil, or_false] at ha
  rcases ha with rfl | rfl
  · cases hbuf
  · cases hbuf
    cases hvalue
    decide

/-- A buffer of one byte: the call returns `CKR_OK` and has written nothing. -/
theorem not_readsComplete_shortBuffer :
    ∃ o, withLabel.getObject 1 1 = some o ∧
      withLabel.readAnswer .toy {} 1 1 [⟨ckaLabel, .data [0]⟩] =
        { rv := .ok, entries := [⟨.bufferTooSmall, 3, .data [0]⟩] } ∧
      ¬ ReadsComplete .toy {} withLabel 1 1 o [⟨ckaLabel, .data [0]⟩] := by
  have hanswer : withLabel.readAnswer .toy {} 1 1 [⟨ckaLabel, .data [0]⟩] =
      { rv := .ok, entries := [⟨.bufferTooSmall, 3, .data [0]⟩] } := by decide
  refine ⟨_, rfl, hanswer, fun hcomplete => ?_⟩
  have hdelivers := hcomplete.ok_iff.mp (by rw [hanswer])
  rw [hanswer] at hdelivers
  obtain ⟨v, hvalue, hwritten⟩ := (List.forall₂_cons.mp hdelivers).1
  obtain ⟨rest, hrest⟩ := hwritten [0] rfl
  cases hvalue
  cases hrest

end Hsm

end VirtualHsm
