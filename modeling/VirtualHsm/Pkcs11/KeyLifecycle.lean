import VirtualHsm.Keystore.Redaction
import VirtualHsm.Pkcs11.CallEffect
import VirtualHsm.Pkcs11.Extractability
import VirtualHsm.Pkcs11.Finalization

/-!
# The life cycle of keys

A key should go from active to rotating to revoked and never back, and a revoked key should not live
on in a new key that is not revoked. The state is an attribute like any other, though.
`C_SetAttributeValue` writes whatever the template says, and `p11_rotate_keypair` marks the old key
without looking at its state. `C_CopyObject` takes the state over, since it has the number of an
attribute with key material, but then applies its template. `C_WrapKey` looks only at the state of
the key it wraps with, and what `C_UnwrapKey` makes of the bytes is active.

What holds is that no other call touches the state of a living key. A key that is not extractable
is not wrapped, before it is revoked or after.
-/

namespace VirtualHsm

/-! ### States -/

namespace KeyState

/-- The stages of a key in their order. An octet that names no state comes after all of them. -/
def stage : KeyState → Nat
  | active => 0
  | rotating => 1
  | revoked => 2
  | unnamed _ => 3

/-- The state that a stored value names; the first octet decides, and active is the default. -/
def ofBytes : Bytes → KeyState
  | b :: _ => ofCode b
  | [] => active

/-- A key in state `s` may be in state `s'` later. -/
structure Forward (s s' : KeyState) : Prop where
  revoked : s = .revoked → s' ≠ .rotating ∧ s' ≠ .active
  rotating : s = .rotating → s' ≠ .active

theorem forward_of_stage_le {s s' : KeyState} (h : s.stage ≤ s'.stage) : s.Forward s' := by
  constructor
  · rintro rfl
    constructor <;> rintro rfl <;> simp [stage] at h
  · rintro rfl rfl
    simp [stage] at h

end KeyState

/-- The entries for the state name no stage before `n`. -/
def WritesFrom (n : Nat) (templ : List CkAttribute) : Prop :=
  ∀ a ∈ templ, a.type = ckaVhsmKeyState → n ≤ (KeyState.ofBytes a.value.bytes).stage

namespace HsmObject

variable {o : HsmObject} {n : Nat} {templ : List CkAttribute}

theorem getKeyState_eq (o : HsmObject) :
    o.getKeyState = .ofBytes ((o.findAttribute ckaVhsmKeyState).getD []) := by
  unfold getKeyState
  split
  next b bs hfind => rw [hfind]; rfl
  next hnone =>
      cases hfind : o.findAttribute ckaVhsmKeyState with
      | none => rfl
      | some v =>
        cases v with
        | nil => rfl
        | cons b bs => exact absurd hfind (hnone b bs)

theorem getKeyState_setAttribute (t : CkUlong) (v : Bytes) :
    (o.setAttribute t v).getKeyState =
      if t = ckaVhsmKeyState then .ofBytes v else o.getKeyState := by
  rw [getKeyState_eq, getKeyState_eq]
  split_ifs with ht
  · rw [ht, findAttribute_setAttribute_self, Option.getD_some]
  · rw [findAttribute_setAttribute_of_ne _ _ _ (Ne.symm ht)]

theorem stage_le_setAttribute (ho : n ≤ o.getKeyState.stage) (htempl : WritesFrom n templ)
    {a : CkAttribute} (ha : a ∈ templ) :
    n ≤ (o.setAttribute a.type a.value.bytes).getKeyState.stage := by
  rw [getKeyState_setAttribute]
  split_ifs with ht
  · exact htempl a ha ht
  · exact ho

/-- The loop of `C_SetAttributeValue`. -/
theorem stage_le_setAttributes (ho : n ≤ o.getKeyState.stage) (htempl : WritesFrom n templ) :
    n ≤ (o.setAttributes templ).2.getKeyState.stage := by
  refine setAttributes_induction (P := fun x => n ≤ x.getKeyState.stage) ho fun x a ha hx => ?_
  -- Fields apart, a write that is not refused goes to the map, like the state itself.
  rcases x.setAttributeChecked_cases a with
    ⟨-, h⟩ | ⟨-, h⟩ | ⟨-, -, h⟩ | ⟨-, -, h⟩ | ⟨-, h⟩
  · rw [h]
    exact hx
  · rw [h]
    exact hx
  · rw [h]
    exact hx
  · rw [h]
    exact hx
  · rw [h]
    exact stage_le_setAttribute hx htempl ha

theorem stage_le_applyTemplate (ho : n ≤ o.getKeyState.stage) (htempl : WritesFrom n templ) :
    n ≤ (applyTemplate o templ).2.getKeyState.stage :=
  applyTemplate_induction (P := fun x => n ≤ x.getKeyState.stage) ho
    fun _ _ ha hx => stage_le_setAttribute hx htempl ha

theorem getKeyState_copyMaterial (src : HsmObject) :
    (copyMaterial src.bareCopy.object src).getKeyState = src.getKeyState := by
  -- The number of the state is the one of the exported public key.
  have hmaterial : ckaVhsmKeyState ∈ materialTypes := by decide
  have hbare : src.bareCopy.object.findAttribute ckaVhsmKeyState = none := rfl
  rw [getKeyState_eq, getKeyState_eq, findAttribute_copyMaterial hmaterial, hbare, Option.or_none,
    nonEmpty]
  cases src.findAttribute ckaVhsmKeyState with
  | none => rfl
  | some v => cases v <;> rfl

theorem stage_le_copyOf {src : HsmObject} (htempl : WritesFrom src.getKeyState.stage templ) :
    src.getKeyState.stage ≤ (Built.copyOf src templ).built.getKeyState.stage :=
  stage_le_applyTemplate (getKeyState_copyMaterial src ▸ le_rfl) htempl

/-- The two objects have the bytes of a private or secret key in common. -/
def SharesKey (o o' : HsmObject) : Prop :=
  ∃ t ∈ secretTypes, ∃ v, o.nonEmpty t = some v ∧ o'.nonEmpty t = some v

end HsmObject

namespace Hsm

/-! ### The life cycle along a run -/

section Lifecycle

variable (be : Backend) (h k : CkUlong)

/-- The call hands back a new object of session `x` that is active or rotating and has the key
bytes of `o`. -/
def YieldsClone (x : CkUlong) (o : HsmObject) (hsm : Hsm) (c : ApiCall) : Prop :=
  ∃ k' ∈ (hsm.api be c).1.handles, ∃ o', (hsm.api be c).2.getObject x k' = some o' ∧
    (o'.getKeyState = .active ∨ o'.getKeyState = .rotating) ∧ o'.SharesKey o

/-- The key is there as `o`, and revoked. -/
def RevokedAs (o : HsmObject) (hsm : Hsm) : Prop :=
  hsm.getObject h k = some o ∧ o.getKeyState = .revoked

/-- A revoked key is cloned by copying it. -/
def CopiesRevoked (hsm : Hsm) (c : ApiCall) : Prop :=
  ∃ env templ ph o, c = .onSession env h (.object (.copyObject k templ ph)) ∧
    RevokedAs h k o hsm ∧ YieldsClone be h o hsm c

/-- The key is wrapped, and `w` is handed out. -/
def WrapsTo (w : Bytes) (hsm : Hsm) (c : ApiCall) : Prop :=
  ∃ env mech wrappingKey buf pul,
    c = .onSession env h (.key (.wrapKey mech wrappingKey k buf pul)) ∧
      (hsm.api be c).1.rv = .ok ∧ (hsm.api be c).1.out = w

/-- A revoked key is cloned by unwrapping `w`, on any session. -/
def UnwrapsRevoked (w : Bytes) (hsm : Hsm) (c : ApiCall) : Prop :=
  ∃ env x mech unwrappingKey buf templ ph o,
    c = .onSession env x (.key (.unwrapKey mech unwrappingKey buf templ ph)) ∧ buf.bytes = w ∧
      RevokedAs h k o hsm ∧ YieldsClone be x o hsm c

/-- The life cycle of one key along a run. -/
structure Lifecycle (hsm : Hsm) (calls : List ApiCall) : Prop where
  /-- Of any two moments of the run, the later one does not find the key at an earlier stage. -/
  forward : ∀ before mid after, calls = before ++ (mid ++ after) → ∀ o o',
    (CS.run (api be) hsm before).getObject h k = some o →
    (CS.run (api be) hsm (before ++ mid)).getObject h k = some o' →
      o.getKeyState.Forward o'.getKeyState
  copy : ∀ before c after, calls = before ++ c :: after →
    ¬ CopiesRevoked be h k (CS.run (api be) hsm before) c
  /-- The key may have been revoked after it was wrapped. -/
  unwrap : ∀ before c mid d after w, calls = before ++ c :: (mid ++ d :: after) →
    WrapsTo be h k w (CS.run (api be) hsm before) c →
      ¬ UnwrapsRevoked be h k w (CS.run (api be) hsm (before ++ c :: mid)) d

end Lifecycle

/-- The call does not set the key back: what it writes to the key or to a copy of it is no earlier
stage, and a revoked key is not rotated. -/
def MovesForward (h k : CkUlong) (hsm : Hsm) : ApiCall → Prop
  | .onSession _ x (.object (.setAttributeValue object templ))
  | .onSession _ x (.object (.copyObject object templ _)) =>
    x = h → object = k → ∀ o, hsm.getObject h k = some o → WritesFrom o.getKeyState.stage templ
  | .onSession _ x (.key (.rotateKeypair old ..)) =>
    x = h → old = k → ∀ o, hsm.getObject h k = some o →
      o.getKeyState.stage ≤ KeyState.rotating.stage
  | _ => True

variable {be : Backend} {hsm : Hsm} {h k : CkUlong} {o : HsmObject} {c : ApiCall}
  {calls : List ApiCall}

/-! ### The state of a key -/

theorem stage_le_api (ho : hsm.getObject h k = some o) (hkeep : Keeps be h k hsm c)
    (hforward : MovesForward h k hsm c) :
    ∃ o', (hsm.api be c).2.getObject h k = some o' ∧
      o.getKeyState.stage ≤ o'.getKeyState.stage := by
  obtain ⟨st, o', hget, hget', ho'⟩ := hkeep.exists_edit ho
  refine ⟨o', ho', ?_⟩
  rcases ObjectStore.getObject_edit_cases hget hget' with
    rfl | ⟨hk, ⟨pub, priv, hedit⟩, rfl⟩ | ⟨templ, hedit, rfl⟩
  · exact le_rfl
  · -- The key was superseded.
    obtain ⟨env, pubTempl, privTempl, phPub, phPriv, rfl⟩ := eq_of_apiEdit_buildPair hk hedit
    have hmarked : (o.setKeyState .rotating).getKeyState = .rotating := by
      rw [HsmObject.setKeyState, HsmObject.getKeyState_setAttribute, if_pos rfl]
      rfl
    rw [hmarked]
    exact hforward rfl rfl o ho
  · obtain ⟨env, rfl⟩ := eq_of_apiEdit_setAttributes hedit
    exact HsmObject.stage_le_setAttributes le_rfl (hforward rfl rfl o ho)

theorem stage_le_run (ho : hsm.getObject h k = some o)
    (hguard : CS.Guarded (api be) (fun hsm c => Keeps be h k hsm c ∧ MovesForward h k hsm c)
      hsm calls) :
    ∃ o', (CS.run (api be) hsm calls).getObject h k = some o' ∧
      o.getKeyState.stage ≤ o'.getKeyState.stage := by
  -- The stage at the start is a lower bound for all that follow.
  let inv (x : Hsm) : Prop :=
    ∃ o', x.getObject h k = some o' ∧ o.getKeyState.stage ≤ o'.getKeyState.stage
  have hstep : ∀ x c, inv x → Keeps be h k x c ∧ MovesForward h k x c → inv (x.api be c).2 := by
    rintro x c ⟨o₁, ho₁, hle₁⟩ ⟨hkeep, hforward⟩
    obtain ⟨o₂, ho₂, hle₂⟩ := stage_le_api ho₁ hkeep hforward
    exact ⟨o₂, ho₂, hle₁.trans hle₂⟩
  exact hguard.invariant hstep ⟨o, ho, le_rfl⟩

/-! ### The bytes of a key -/

/-- The new object of `C_CopyObject`. -/
theorem getObject_of_copyObject {env : Env} {templ : List CkAttribute} {ph : Bool} {k' : CkUlong}
    {o' : HsmObject} (ho : hsm.getObject h k = some o)
    (hk' : k' ∈ (hsm.api be (.onSession env h (.object (.copyObject k templ ph)))).1.handles)
    (ho' : (hsm.api be (.onSession env h (.object (.copyObject k templ ph)))).2.getObject h k' =
      some o') : o' = (Built.copyOf o templ).built := by
  cases ph with
  | false =>
    -- Without a pointer for the handle the call is refused.
    have hrefused : ∀ e, hsm.cCopyObject h k templ false ≠ .ok e := fun e he =>
      (refuseIf_bind_eq_ok.mp (refuseIf_bind_eq_ok.mp he).2).1 rfl
    change k' ∈ (hsm.finish h (hsm.cCopyObject h k templ false)).1.handles at hk'
    cases hcall : hsm.cCopyObject h k templ false with
    | error rv =>
      rw [hcall] at hk'
      cases hk'
    | ok e => exact absurd hcall (hrefused e)
  | true =>
    rcases @api_copyObject_cases be env hsm h k templ with
      ⟨src, k'', hsrc, -, hhandles, hcopy⟩ | ⟨hnone, -⟩
    · rw [hhandles] at hk'
      obtain rfl := List.mem_singleton.mp hk'
      obtain rfl := Option.mem_unique ho hsrc
      exact Option.mem_unique ho' hcopy
    · rw [hnone] at hk'
      cases hk'

theorem not_copiesRevoked (hforward : MovesForward h k hsm c) : ¬ CopiesRevoked be h k hsm c := by
  rintro ⟨env, templ, ph, o, rfl, ⟨ho, hrevoked⟩, k', hk', o', ho', hstate, -⟩
  obtain rfl := getObject_of_copyObject ho hk' ho'
  have hle := HsmObject.stage_le_copyOf (hforward rfl rfl o ho)
  -- The copy is at least at the stage of its source.
  obtain ⟨hrotating, hactive⟩ := (KeyState.forward_of_stage_le hle).revoked hrevoked
  exact hstate.elim hactive hrotating

theorem Locked.not_wrapsTo {w : Bytes} (hlocked : hsm.Locked h k) : ¬ WrapsTo be h k w hsm c := by
  rintro ⟨env, mech, wrappingKey, buf, pul, rfl, hrv, -⟩
  obtain ⟨o, ho, hflag⟩ := hlocked
  exact finish_rv_ne (fails_cWrapKey ho hflag env.seed mech wrappingKey buf pul) h hrv

/-! ### The life cycle -/

/-- State and secret bytes of a key. -/
def keyFacts (hsm : Hsm) (h k : CkUlong) : Option (KeyState × Option Bytes) :=
  (hsm.getObject h k).map fun o => (o.getKeyState, o.nonEmpty ckaValue)

theorem exists_of_keyFacts {s : KeyState} {v : Option Bytes}
    (hfacts : hsm.keyFacts h k = some (s, v)) :
    ∃ o, hsm.getObject h k = some o ∧ o.getKeyState = s ∧ o.nonEmpty ckaValue = v := by
  obtain ⟨o, ho, heq⟩ := Option.map_eq_some_iff.mp hfacts
  exact ⟨o, ho, congrArg Prod.fst heq, congrArg Prod.snd heq⟩

theorem yieldsClone_of_keyFacts {x : CkUlong} {v : Bytes} (hk : k ∈ (hsm.api be c).1.handles)
    (hfacts : (hsm.api be c).2.keyFacts x k = some (.active, some v))
    (ho : o.nonEmpty ckaValue = some v) : YieldsClone be x o hsm c := by
  obtain ⟨o', ho', hstate, hvalue⟩ := exists_of_keyFacts hfacts
  exact ⟨k, hk, o', ho', .inl hstate, ckaValue, by decide, v, hvalue, ho⟩

/-- The toy library, in which no bytes parse as a private key. -/
def secretsOnly : Backend :=
  { Backend.toy with rsaImportPrivateDer := fun _ => none, ecImportPrivateDer := fun _ => none }

/-- Make a secret key with `C_CreateObject`. -/
def createSecret (value : Bytes) (more : List CkAttribute) : ApiCall :=
  .onSession {} 1 (.object (.createObject
    ([⟨ckaClass, .data (ulongBytes ckoSecretKey)⟩, ⟨ckaValue, .data value⟩] ++ more) true))

def stateEntry (s : KeyState) : CkAttribute := ⟨ckaVhsmKeyState, .data [s.code]⟩

def writeState (k : CkUlong) (s : KeyState) : ApiCall :=
  .onSession {} 1 (.object (.setAttributeValue k [stateEntry s]))

def copyKey (k : CkUlong) (templ : List CkAttribute) : ApiCall :=
  .onSession {} 1 (.object (.copyObject k templ true))

def wrapKey (wrappingKey k : CkUlong) : ApiCall :=
  .onSession {} 1 (.key (.wrapKey (some ⟨ckmAesKeyWrap, .absent⟩) wrappingKey k
    (.data (List.replicate 24 0)) true))

/-- A key that is not extractable. -/
def withLockedKey : Hsm :=
  CS.run (api secretsOnly) {}
    (openOne ++ [createSecret (List.replicate 16 7) [⟨ckaExtractable, .data [ckFalse]⟩],
      createSecret (List.replicate 32 9) []])

/-- A revoked key, and another one that can wrap it. -/
def withRevokedKey : Hsm :=
  CS.run (api secretsOnly) {}
    (openOne ++ [createSecret (List.replicate 16 7) [stateEntry .revoked],
      createSecret (List.replicate 32 9) []])

def unwrapKey (unwrappingKey : CkUlong) (wrapped : Bytes) : ApiCall :=
  .onSession {} 1 (.key (.unwrapKey (some ⟨ckmAesKeyWrap, .absent⟩) unwrappingKey (.data wrapped) []
    true))

/-- What wrapping the revoked key hands out. -/
def wrappedKey : Bytes := (withRevokedKey.api secretsOnly (wrapKey (composeHandle 1 1) 1)).1.out

/-- A revoked private key. -/
def withRevokedPair : Hsm :=
  CS.run (api secretsOnly) {} (openOne ++ [.onSession {} 1
    (.key (.generateKeyPair (some ⟨ckmRsaPkcsKeyPairGen, .absent⟩) [] [] true true)),
    writeState (composeHandle 1 1) .revoked])

def rotateKey (k : CkUlong) : ApiCall := .onSession {} 1 (.key (.rotateKeypair k [] [] true true))

/-- The key lives through the calls, but not in the order of its life cycle. -/
def SetBack (hsm : Hsm) (k : CkUlong) (calls : List ApiCall) : Prop :=
  CS.Guarded (api secretsOnly) (Keeps secretsOnly 1 k) hsm calls ∧ ¬ Lifecycle secretsOnly 1 k hsm calls

end Hsm

end VirtualHsm
