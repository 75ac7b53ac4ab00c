import VirtualHsm.Pkcs11.AttributeWrites
import VirtualHsm.Pkcs11.KeyLifecycle

/-!
# Key state and key material

The state of a key and its bytes are attributes of one map. Two headers give them their vendor
codes, and both use `0x81000004`: `CKA_VHSM_KEY_STATE` is `CKA_VHSM_EC_PUB`. An exported public key
on a curve is therefore read as a state by `getKeyState`, and a state is read as key bytes by
`raw_key_bytes`, which looks at that code last, and by the build of `p11_build_key_from_attrs`
without the shim.

State and bytes stay apart as long as nothing is exported under the shared code and the readers find
the key bytes under one of the codes they look at first. Keys in private and secret objects and RSA
public keys are found there.
-/

namespace VirtualHsm

/-- A call that sets the state of an object or stores key material in it. A state is given by the
octet that the enumeration keeps. -/
inductive MaterialCall (be : Backend)
  | setKeyState (code : UInt8)
  | storeKeyEvp (k : be.Pkey) (isPrivate : Bool)
  | storeKeyRsa (k : be.Pkey) (isPrivate : Bool)
  | storeKeyEc (k : be.Pkey) (isPrivate : Bool)
  | storeSecret (raw : Bytes)
  | copyMaterial (src : HsmObject)
  | applyTemplate (templ : List CkAttribute)

namespace MaterialCall

variable {be : Backend}

def step (o : HsmObject) : MaterialCall be → CkRv × HsmObject
  | setKeyState code => (.ok, o.setKeyState (.ofCode code))
  | storeKeyEvp k isPrivate => VirtualHsm.storeKeyEvp be o k isPrivate
  | storeKeyRsa k isPrivate => VirtualHsm.storeKeyRsa be o k isPrivate
  | storeKeyEc k isPrivate => VirtualHsm.storeKeyEc be o k isPrivate
  | storeSecret raw => (.ok, VirtualHsm.storeSecret o raw)
  | copyMaterial src => (.ok, VirtualHsm.copyMaterial o src)
  | applyTemplate templ => VirtualHsm.applyTemplate o templ

/-- The call stores key material. -/
def stores : MaterialCall be → Bool
  | setKeyState _ => false
  | _ => true

/-- The state that the object should be in after the call. -/
def nextState (s : KeyState) : MaterialCall be → KeyState
  | setKeyState code => .ofCode code
  | copyMaterial src => src.getKeyState
  | _ => s

/-- The call does not write key material under the code of the state. A copy brings the state of its
source along if the source has one, and otherwise leaves the state as it is. -/
def Apart (o : HsmObject) : MaterialCall be → Prop
  | storeKeyEvp k isPrivate => be.base k = .ec → isPrivate = true
  | copyMaterial src => src.nonEmpty ckaVhsmKeyState = none → o.getKeyState = .active
  | applyTemplate templ => ckaVhsmKeyState ∉ templ.map (·.type)
  | _ => True

end MaterialCall

open MaterialCall in
/-- After the calls on a new object, its state is the one last set, and what the readers of key
material find is what the storing calls alone would have left. -/
structure KeepsApart (be : Backend) (b : BareObject) (calls : List (MaterialCall be)) : Prop where
  state : (CS.run step b.object calls).getKeyState = calls.foldl nextState .active
  raw : rawKeyBytes (CS.run step b.object calls) =
    rawKeyBytes (CS.run step b.object (calls.filter stores))
  build : buildKeyFromAttrs be (CS.run step b.object calls) =
    buildKeyFromAttrs be (CS.run step b.object (calls.filter stores))

/-! ### The state -/

theorem KeyState.code_ofCode (c : UInt8) : (ofCode c).code = c := by
  unfold ofCode
  split_ifs with h0 h1 h2
  · exact h0.symm
  · exact h1.symm
  · exact h2.symm
  · rfl

theorem HsmObject.getKeyState_eq_nonEmpty (o : HsmObject) :
    o.getKeyState = .ofBytes ((o.nonEmpty ckaVhsmKeyState).getD []) := by
  rw [getKeyState_eq, nonEmpty]
  cases o.findAttribute ckaVhsmKeyState with
  | none => rfl
  | some v => cases v <;> rfl

theorem HsmObject.getKeyState_congr {o o' : HsmObject}
    (h : o'.findAttribute ckaVhsmKeyState = o.findAttribute ckaVhsmKeyState) :
    o'.getKeyState = o.getKeyState := by
  rw [getKeyState_eq, getKeyState_eq, h]

namespace MaterialCall

variable {be : Backend} {o : HsmObject} {c : MaterialCall be}

theorem getKeyState_copyMaterial {src : HsmObject}
    (h : src.nonEmpty ckaVhsmKeyState = none → o.getKeyState = .active) :
    (VirtualHsm.copyMaterial o src).getKeyState = src.getKeyState := by
  have hmaterial : ckaVhsmKeyState ∈ materialTypes := by decide
  have hcopy := @findAttribute_copyMaterial o src _ hmaterial
  rw [src.getKeyState_eq_nonEmpty]
  cases hsrc : src.nonEmpty ckaVhsmKeyState with
  | none =>
    rw [hsrc, Option.none_or] at hcopy
    exact (HsmObject.getKeyState_congr hcopy).trans (h hsrc)
  | some v =>
    rw [hsrc, Option.some_or] at hcopy
    rw [HsmObject.getKeyState_eq, hcopy]

theorem getKeyState_step (h : c.Apart o) :
    (step o c).2.getKeyState = nextState o.getKeyState c := by
  cases c with
  | setKeyState code =>
    simp only [step, HsmObject.setKeyState, HsmObject.getKeyState_setAttribute, if_true,
      KeyState.code_ofCode]
    rfl
  | storeKeyEvp k isPrivate =>
    refine HsmObject.getKeyState_congr ((writesOnly_storeKeyEvp k isPrivate).frame o _ ?_)
    have hpublic : ¬ (be.base k = .ec ∧ isPrivate = false) := by
      rintro ⟨hbase, hpublic⟩
      rw [h hbase] at hpublic
      cases hpublic
    rw [evpKeyTypes, if_neg hpublic]
    decide
  | storeKeyRsa k isPrivate =>
    exact HsmObject.getKeyState_congr ((writesOnly_storeKeyRsa k isPrivate).frame o _ (by decide))
  | storeKeyEc k isPrivate =>
    exact HsmObject.getKeyState_congr ((writesOnly_storeKeyEc k isPrivate).frame o _ (by decide))
  | storeSecret raw =>
    exact HsmObject.getKeyState_congr ((writesOnly_storeSecret raw).frame o _ (by decide))
  | copyMaterial src => exact getKeyState_copyMaterial h
  | applyTemplate templ =>
    exact HsmObject.getKeyState_congr ((writesOnly_applyTemplate templ).frame o _ h)

theorem getKeyState_run {calls : List (MaterialCall be)} (ho : o.getKeyState = .active)
    (h : CS.Guarded step (fun o c => c.Apart o) o calls) :
    (CS.run step o calls).getKeyState = calls.foldl nextState .active := by
  refine h.history (fun done o => o.getKeyState = done.foldl nextState .active) ?_ ho
  intro done c hdone hc
  rw [getKeyState_step hc, hdone, List.foldl_append]
  rfl

/-! ### The other attributes -/

theorem writesOnly_step (hc : c.stores = true) : ∃ types, WritesOnly types fun o => step o c := by
  cases c with
  | setKeyState code => cases hc
  | storeKeyEvp k isPrivate => exact ⟨_, writesOnly_storeKeyEvp k isPrivate⟩
  | storeKeyRsa k isPrivate => exact ⟨_, writesOnly_storeKeyRsa k isPrivate⟩
  | storeKeyEc k isPrivate => exact ⟨_, writesOnly_storeKeyEc k isPrivate⟩
  | storeSecret raw => exact ⟨_, writesOnly_storeSecret raw⟩
  | copyMaterial src => exact ⟨_, writesOnly_copyMaterial src⟩
  | applyTemplate templ => exact ⟨_, writesOnly_applyTemplate templ⟩

theorem findAttribute_step_of_not_stores (hc : c.stores = false) {t : CkUlong}
    (ht : t ≠ ckaVhsmKeyState) : (step o c).2.findAttribute t = o.findAttribute t := by
  cases c with
  | setKeyState code => exact o.findAttribute_setAttribute_of_ne _ _ ht
  | storeKeyEvp | storeKeyRsa | storeKeyEc | storeSecret | copyMaterial | applyTemplate => cases hc

theorem findAttribute_run_filter (o : HsmObject) (calls : List (MaterialCall be)) {t : CkUlong}
    (ht : t ≠ ckaVhsmKeyState) :
    (CS.run step o calls).findAttribute t =
      (CS.run step o (calls.filter stores)).findAttribute t := by
  -- The run with the states keeps pace with the one without them.
  refine CS.run_history (fun done (o' : HsmObject) => o'.findAttribute t =
    (CS.run step o (done.filter stores)).findAttribute t) ?_ rfl calls
  intro done c hdone
  cases hc : c.stores with
  | true =>
    obtain ⟨types, hwrites⟩ := writesOnly_step hc
    have hfilter : (done ++ [c]).filter stores = done.filter stores ++ [c] := by
      rw [List.filter_append, List.filter_cons_of_pos hc, List.filter_nil]
    rw [hfilter, CS.run_append]
    exact hwrites.congr _ _ t hdone
  | false =>
    have hfilter : (done ++ [c]).filter stores = done.filter stores := by
      rw [List.filter_append, List.filter_cons_of_neg (by simp [hc]), List.filter_nil,
        List.append_nil]
    rw [hfilter, findAttribute_step_of_not_stores hc ht]
    exact hdone

end MaterialCall

/-! ### The readers of key material -/

/-- Where `raw_key_bytes` looks before it comes to the shared code. -/
def rawKeyTypesBefore : List CkUlong := [ckaValue, ckaVhsmRsaPriv, ckaVhsmEcPriv, ckaVhsmRsaPub]

/-- Where `p11_build_key_from_attrs` looks before it comes to the shared code. -/
def buildTypesBefore : List CkUlong := [ckaVhsmRsaPriv, ckaVhsmEcPriv, ckaVhsmRsaPub]

section Readers

variable {be : Backend} {o o' : HsmObject}
  (hagree : ∀ t ≠ ckaVhsmKeyState, o.findAttribute t = o'.findAttribute t)

include hagree

theorem nonEmpty_congr {t : CkUlong} (ht : t ≠ ckaVhsmKeyState) : o.nonEmpty t = o'.nonEmpty t := by
  rw [HsmObject.nonEmpty, HsmObject.nonEmpty, hagree t ht]

theorem rawKeyBytes_congr (hfound : ∃ t ∈ rawKeyTypesBefore, (o.nonEmpty t).isSome) :
    rawKeyBytes o = rawKeyBytes o' := by
  have hsplit (x : HsmObject) : rawKeyBytes x =
      (rawKeyTypesBefore.findSome? x.nonEmpty).or ([ckaVhsmEcPub].findSome? x.nonEmpty) := by
    rw [← List.findSome?_append]
    rfl
  have hsame : rawKeyTypesBefore.findSome? o.nonEmpty = rawKeyTypesBefore.findSome? o'.nonEmpty := by
    simp only [rawKeyTypesBefore, List.findSome?_cons, List.findSome?_nil]
    rw [nonEmpty_congr hagree (t := ckaValue) (by decide),
      nonEmpty_congr hagree (t := ckaVhsmRsaPriv) (by decide),
      nonEmpty_congr hagree (t := ckaVhsmEcPriv) (by decide),
      nonEmpty_congr hagree (t := ckaVhsmRsaPub) (by decide)]
  obtain ⟨v, hv⟩ := Option.isSome_iff_exists.mp (List.findSome?_isSome_iff.mpr hfound)
  rw [hsplit, hsplit, ← hsame, hv, Option.some_or, Option.some_or]

theorem buildKeyFromAttrs_congr
    (hfound : be.shim = true ∨ ∃ t ∈ buildTypesBefore, (o.nonEmpty t).isSome) :
    buildKeyFromAttrs be o = buildKeyFromAttrs be o' := by
  have hpoint : buildFromParamsPoint be o = buildFromParamsPoint be o' := by
    simp only [buildFromParamsPoint, nonEmpty_congr hagree (t := ckaEcParams) (by decide),
      nonEmpty_congr hagree (t := ckaEcPoint) (by decide)]
  simp only [buildKeyFromAttrs]
  rw [nonEmpty_congr hagree (t := ckaVhsmRsaPriv) (by decide),
    nonEmpty_congr hagree (t := ckaVhsmEcPriv) (by decide),
    nonEmpty_congr hagree (t := ckaVhsmRsaPub) (by decide)]
  cases hrsaPriv : o'.nonEmpty ckaVhsmRsaPriv with
  | some der => rfl
  | none =>
    cases hecPriv : o'.nonEmpty ckaVhsmEcPriv with
    | some der => rfl
    | none =>
      cases hrsaPub : o'.nonEmpty ckaVhsmRsaPub with
      | some der => rfl
      | none =>
        -- None of the attributes before the shared code is there, so this is the shim.
        rcases hfound with hshim | ⟨t, ht, hsome⟩
        · simp only [hshim, if_true]
          exact hpoint
        · simp only [buildTypesBefore, List.mem_cons, List.not_mem_nil, or_false] at ht
          rcases ht with rfl | rfl | rfl
          · rw [nonEmpty_congr hagree (by decide), hrsaPriv] at hsome
            cases hsome
          · rw [nonEmpty_congr hagree (by decide), hecPriv] at hsome
            cases hsome
          · rw [nonEmpty_congr hagree (by decide), hrsaPub] at hsome
            cases hsome

end Readers

/-! ### State and material -/

section Apart

open MaterialCall

variable {be : Backend} {b : BareObject} {calls : List (MaterialCall be)}

/-- State and key bytes stay apart when no call writes key material under the code of the state and,
if a state was set, both readers find the key bytes before they come to that code. -/
theorem keepsApart_of_apart (hapart : CS.Guarded step (fun o c => c.Apart o) b.object calls)
    (hraw : (∃ c ∈ calls, c.stores = false) →
      ∃ t ∈ rawKeyTypesBefore, ((CS.run step b.object calls).nonEmpty t).isSome)
    (hbuild : (∃ c ∈ calls, c.stores = false) →
      be.shim = true ∨ ∃ t ∈ buildTypesBefore, ((CS.run step b.object calls).nonEmpty t).isSome) :
    KeepsApart be b calls := by
  have hagree : ∀ t ≠ ckaVhsmKeyState, (CS.run step b.object calls).findAttribute t =
      (CS.run step b.object (calls.filter stores)).findAttribute t :=
    fun t ht => findAttribute_run_filter b.object calls ht
  have hstate := @getKeyState_run be b.object calls rfl hapart
  by_cases hset : ∃ c ∈ calls, c.stores = false
  · exact ⟨hstate, rawKeyBytes_congr hagree (hraw hset), buildKeyFromAttrs_congr hagree (hbuild hset)⟩
  · have hall : calls.filter stores = calls := by
      refine List.filter_eq_self.mpr fun c hc => ?_
      by_contra hc'
      exact hset ⟨c, hc, Bool.eq_false_of_not_eq_true hc'⟩
    refine ⟨hstate, ?_, ?_⟩
    · rw [hall]
    · rw [hall]

end Apart

/-- A generated private key that is revoked. -/
theorem keepsApart_revoked :
    KeepsApart Backend.toy barePrivateKey [.storeKeyEc .ec true, .setKeyState 2] := by
  refine keepsApart_of_apart ⟨trivial, trivial, trivial⟩ (fun _ => ?_) fun _ => .inl rfl
  exact ⟨ckaVhsmEcPriv, by decide, by decide⟩

/-- The public key of an unwrapped or imported pair: its encoding names no state that was set, and a
state takes the place of the encoding. -/
theorem not_keepsApart_ecPublic :
    ¬ KeepsApart Backend.toy barePublicKey [.storeKeyEvp .ec false] ∧
      ¬ KeepsApart Backend.toy barePublicKey [.storeKeyEvp .ec false, .setKeyState 1] := by
  constructor
  · intro h
    exact absurd h.state (by decide)
  · intro h
    exact absurd h.raw (by decide)

end VirtualHsm
