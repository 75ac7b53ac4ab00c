import VirtualHsm.Pkcs11.AttributeWrites
import VirtualHsm.Pkcs11.KeyLifecycle

/-!
# What a copy inherits

`C_CopyObject` takes class and flags of the source, copies a fixed list of attributes and then
applies its template. The flags of a copy are those of the source. The policy document is not on
the list, so that `do_sign` admits everybody on a copy. The state is, as the number of an exported
public key, but the template may overwrite it.
-/

namespace VirtualHsm

/-- A call of `C_CopyObject` whose template mentions neither the policy nor the attestations. -/
structure CopyCall where
  env : Env
  templ : List CkAttribute
  noPolicy : ∀ a ∈ templ, a.type ≠ ckaVhsmPolicy
  noCount : ∀ a ∈ templ, a.type ≠ ckaVhsmAttestationCount

/-- The module and the object that the chain has come to: a copy that succeeds is the next source. -/
def copyStep (be : Backend) (h : CkUlong) (s : Hsm × CkUlong) (c : CopyCall) :
    Answer × (Hsm × CkUlong) :=
  let r := s.1.api be (.onSession c.env h (.object (.copyObject s.2 c.templ true)))
  (r.1, (r.2, r.1.handles.getLast?.getD s.2))

/-- The gate of `do_sign` with the key `k` refuses the session at this time. -/
def GateRefuses (env : Env) (s : Session) (now : Int) (k : CkUlong) (o : HsmObject) : Prop :=
  Session.policyGate { env with nowMs := now } { s with signKey := k } o ≠ .ok ()

/-- The copy, under the handle `k'`, is at least as restricted as the source under `k`. -/
structure AtLeastAsRestricted (env : Env) (k : CkUlong) (src : HsmObject) (k' : CkUlong)
    (copy : HsmObject) : Prop where
  priv : src.priv = true → copy.priv = true
  sensitive : src.sensitive = true → copy.sensitive = true
  extractable : copy.extractable = true → src.extractable = true
  keyState : copy.getKeyState = src.getKeyState
  /-- Actor and mechanism are those of the session. -/
  policy : ∀ s now, GateRefuses env s now k src → GateRefuses env s now k' copy

/-- If the copy is made, the gate refuses nobody on the first source, and a state in the template is
the one of that source. -/
def HarmlessCopy (be : Backend) (env : Env) (h k : CkUlong) (src : HsmObject) (s : Hsm × CkUlong)
    (c : CopyCall) : Prop :=
  (copyStep be h s c).1.handles ≠ [] →
    (∀ sess now, ¬ GateRefuses env sess now k src) ∧
      ∀ v, templateValue ckaVhsmKeyState c.templ = some v → KeyState.ofBytes v = src.getKeyState

/-! ### One copy -/

section Copy

variable {src : HsmObject} {templ : List CkAttribute}

theorem getKeyState_copyOf (hrv : (Built.copyOf src templ).rv = .ok) :
    (Built.copyOf src templ).built.getKeyState =
      ((templateValue ckaVhsmKeyState templ).map KeyState.ofBytes).getD src.getKeyState := by
  rw [← HsmObject.getKeyState_copyMaterial src]
  rw [Built.copyOf, HsmObject.getKeyState_eq, findAttribute_applyTemplate hrv,
    HsmObject.getKeyState_eq]
  cases templateValue ckaVhsmKeyState templ with
  | none => rw [Option.none_or, Option.map_none, Option.getD_none]
  | some v => rw [Option.some_or, Option.getD_some, Option.map_some, Option.getD_some]

theorem nonEmpty_policy_copyOf (hrv : (Built.copyOf src templ).rv = .ok)
    (htempl : ∀ a ∈ templ, a.type ≠ ckaVhsmPolicy) :
    (Built.copyOf src templ).built.nonEmpty ckaVhsmPolicy = none := by
  have hcopied : ckaVhsmPolicy ∉ materialTypes := by decide
  rw [HsmObject.nonEmpty, Built.copyOf, findAttribute_applyTemplate hrv,
    templateValue_eq_none htempl, findAttribute_copyMaterial_eq, if_neg hcopied]
  rfl

theorem not_gateRefuses (env : Env) {o : HsmObject} (h : o.nonEmpty ckaVhsmPolicy = none)
    (s : Session) (now : Int) (k : CkUlong) : ¬ GateRefuses env s now k o := by
  rw [GateRefuses, Session.policyGate, h]
  exact not_not.mpr rfl

theorem gateRefuses_of_unreadable {env : Env} {o : HsmObject} {doc : Bytes}
    (h : o.nonEmpty ckaVhsmPolicy = some doc) (hparse : env.parseJson doc = none)
    (s : Session) (now : Int) (k : CkUlong) : GateRefuses env s now k o := by
  simp only [GateRefuses, Session.policyGate, h, hparse, Option.bind_none]
  exact fun hok => by cases hok

end Copy

namespace Hsm

variable {be : Backend} {env : Env} {hsm : Hsm} {h k : CkUlong} {o : HsmObject}

/-! ### Chains of copies -/

/-- A copy of an object that is no less restricted than the first source is so too exactly when the
copy is harmless. -/
theorem atLeastAsRestricted_copyOf_iff {src : HsmObject} {k' : CkUlong} {c : CopyCall}
    (k'' : CkUlong) (hsrc : AtLeastAsRestricted env k o k' src)
    (hrv : (Built.copyOf src c.templ).rv = .ok) :
    AtLeastAsRestricted env k o k'' (Built.copyOf src c.templ).built ↔
      (∀ s now, ¬ GateRefuses env s now k o) ∧
        ∀ v, templateValue ckaVhsmKeyState c.templ = some v →
          KeyState.ofBytes v = o.getKeyState := by
  have hfields := (Built.copyOf src c.templ).sameFields
  have hstate := getKeyState_copyOf hrv
  have hgate := not_gateRefuses env (nonEmpty_policy_copyOf hrv c.noPolicy)
  constructor
  · intro hcopy
    refine ⟨fun s now hrefuses => hgate s now k'' (hcopy.policy s now hrefuses), fun v hv => ?_⟩
    rw [hv, hcopy.keyState] at hstate
    exact hstate.symm
  · rintro ⟨hadmits, hsame⟩
    refine ⟨fun hp => ?_, fun hs => ?_, fun he => ?_, ?_, fun s now hr => (hadmits s now hr).elim⟩
    · exact hfields.priv.trans (hsrc.priv hp)
    · exact hfields.sensitive.trans (hsrc.sensitive hs)
    · exact hsrc.extractable (hfields.extractable.symm.trans he)
    · rw [hstate]
      cases hv : templateValue ckaVhsmKeyState c.templ with
      | none => exact hsrc.keyState
      | some v => exact hsame v hv

/-- Along every chain of copies, no copy is less restricted than the source of the first one exactly
when every copy that is made is harmless. -/
theorem atLeastAsRestricted_iff (be : Backend) (env : Env) (hsm : Hsm) (h k : CkUlong)
    (o : HsmObject) (ho : hsm.getObject h k = some o) (calls : List CopyCall) :
    CS.Always (copyStep be h)
        (fun s => ∀ o', s.1.getObject h s.2 = some o' → AtLeastAsRestricted env k o s.2 o')
        (hsm, k) calls ↔
      CS.Guarded (copyStep be h) (HarmlessCopy be env h k o) (hsm, k) calls := by
  refine CS.always_iff_guarded (fun s c hs => ?_) fun o' ho' => ?_
  · obtain ⟨now, k'⟩ := s
    rcases @api_copyObject_cases be c.env now h k' c.templ with
      ⟨src, k'', hsrc, hrv, hhandles, hcopy⟩ | ⟨hhandles, hkept⟩
    · have hiff := atLeastAsRestricted_copyOf_iff k'' (hs src hsrc) hrv
      simp only [HarmlessCopy, copyStep, hhandles, List.getLast?_singleton, Option.getD_some, hcopy,
        Option.some.injEq, ne_eq, List.cons_ne_nil, not_false_eq_true, forall_const]
      exact ⟨fun hall => hiff.mp (hall _ rfl), fun hok o' ho' => ho' ▸ hiff.mpr hok⟩
    · -- No copy was made, and the chain goes on from the same object.
      simp only [HarmlessCopy, copyStep, hhandles, List.getLast?_nil, Option.getD_none, ne_eq,
        not_true_eq_false, false_implies, iff_true]
      exact fun o' ho' => hs o' (hkept o' ho')
  · obtain rfl : o = o' := Option.mem_unique ho ho'
    exact ⟨id, id, id, rfl, fun _ _ => id⟩

/-! ### Keys with and without a policy -/

/-- The first session has created a private key, with these entries in the template. -/
def withPrivateKey (templ : List CkAttribute) : Hsm :=
  (oneSession.api .toy (.onSession {} 1 (.object (.createObject
    (⟨ckaClass, .data (ulongBytes ckoPrivateKey)⟩ :: templ) true)))).2

/-- A copy with an empty template. -/
def plainCopy : CopyCall := ⟨{}, [], by simp, by simp⟩

/-- A key without a document, and the copy of its copy. -/
theorem atLeastAsRestricted_plainCopies :
    ∃ o, (withPrivateKey []).getObject 1 1 = some o ∧
      CS.Always (copyStep .toy 1)
        (fun s => ∀ o', s.1.getObject 1 s.2 = some o' → AtLeastAsRestricted {} 1 o s.2 o')
        (withPrivateKey [], 1) [plainCopy, plainCopy] := by
  refine ⟨_, rfl, (atLeastAsRestricted_iff .toy {} (withPrivateKey []) 1 1 _ rfl _).mpr ?_⟩
  refine ⟨fun _ => ⟨fun sess now => ?_, fun v hv => ?_⟩,
    fun _ => ⟨fun sess now => ?_, fun v hv => ?_⟩, trivial⟩
  · exact not_gateRefuses {} rfl sess now 1
  · cases hv
  · exact not_gateRefuses {} rfl sess now 1
  · cases hv

/-- The copy of a key with a document that nobody can read admits everybody. -/
theorem not_atLeastAsRestricted_policy :
    ∃ o, (withPrivateKey [⟨ckaVhsmPolicy, .data [120]⟩]).getObject 1 1 = some o ∧
      ¬ CS.Always (copyStep .toy 1)
        (fun s => ∀ o', s.1.getObject 1 s.2 = some o' → AtLeastAsRestricted {} 1 o s.2 o')
        (withPrivateKey [⟨ckaVhsmPolicy, .data [120]⟩], 1) [plainCopy] := by
  refine ⟨_, rfl, fun halways => ?_⟩
  have hcopy := halways.last _ rfl
  exact hcopy.policy (.opened 1 0 ckfSerialSession) 0 (gateRefuses_of_unreadable rfl rfl _ _ _) rfl

end Hsm

end VirtualHsm
