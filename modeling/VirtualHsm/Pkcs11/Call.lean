import VirtualHsm.Keystore.StoreEdit
import VirtualHsm.Pkcs11.Module

/-!
# Calls on a session

A call that works on a session is refused with a code, or has an effect: an answer for the
caller, an edit of the session's object store, an update of its operation and search state, and
events. `Hsm.finish` applies the effect, so that whatever a call does to a store is its edit.
-/

namespace VirtualHsm

/-- What a call hands back: the code, the handles it stores, the template entries it writes back,
the length it stores, and the bytes it writes to the output buffer. -/
structure Answer where
  rv : CkRv
  handles : List CkUlong := []
  entries : List HsmObject.AttributeAnswer := []
  len : Option Nat := none
  out : Bytes := []
  deriving DecidableEq, Repr

/-- A change of the operation or search state of a session. -/
structure SessionUpdate where
  run : Session → Session
  handle_run : ∀ s, (run s).handle = s.handle
  slotId_run : ∀ s, (run s).slotId = s.slotId
  objectStore_run : ∀ s, (run s).objectStore = s.objectStore

namespace SessionUpdate

def none : SessionUpdate := ⟨id, fun _ => rfl, fun _ => rfl, fun _ => rfl⟩

def opBegin (mech key : CkUlong) : SessionUpdate where
  run s := (s.opBegin mech key).2
  handle_run s := by unfold Session.opBegin; split_ifs <;> rfl
  slotId_run s := by unfold Session.opBegin; split_ifs <;> rfl
  objectStore_run s := by unfold Session.opBegin; split_ifs <;> rfl

def opEnd : SessionUpdate := ⟨Session.opEnd, fun _ => rfl, fun _ => rfl, fun _ => rfl⟩

def opUpdate (data : CkBuf) : SessionUpdate :=
  ⟨fun s => s.opUpdate data, fun _ => rfl, fun _ => rfl, fun _ => rfl⟩

def setGcmParams (iv aad : Bytes) : SessionUpdate :=
  ⟨fun s => s.setGcmParams iv aad, fun _ => rfl, fun _ => rfl, fun _ => rfl⟩

def setOaepParams (mgf1 : String) (label : Bytes) : SessionUpdate :=
  ⟨fun s => s.setOaepParams mgf1 label, fun _ => rfl, fun _ => rfl, fun _ => rfl⟩

def setFindResults (handles : List CkUlong) : SessionUpdate :=
  ⟨fun s => s.setFindResults handles, fun _ => rfl, fun _ => rfl, fun _ => rfl⟩

def findNextBatch (maxCount : Nat) : SessionUpdate :=
  ⟨fun s => (s.findNextBatch maxCount).2, fun _ => rfl, fun _ => rfl, fun _ => rfl⟩

def clearFindResults : SessionUpdate :=
  ⟨Session.clearFindResults, fun _ => rfl, fun _ => rfl, fun _ => rfl⟩

/-- First `u`, then `v`. -/
def andThen (u v : SessionUpdate) : SessionUpdate where
  run s := v.run (u.run s)
  handle_run s := (v.handle_run _).trans (u.handle_run s)
  slotId_run s := (v.slotId_run _).trans (u.slotId_run s)
  objectStore_run s := (v.objectStore_run _).trans (u.objectStore_run s)

end SessionUpdate

structure Effect where
  answer : Answer
  edit : StoreEdit := .keep
  update : SessionUpdate := .none
  events : List P11Event := []

namespace Effect

variable (e : Effect) (s : Session)

/-- The session after the call. -/
def after : Session := { e.update.run s with objectStore := s.objectStore.edit e.edit }

theorem after_handle : (e.after s).handle = s.handle := e.update.handle_run s

end Effect

namespace Hsm

variable (hsm : Hsm)

/-- The object store of an open session. -/
def store (handle : CkUlong) : Option ObjectStore := (hsm.getSession handle).map (·.objectStore)

/-- `p11_get_object`. -/
def getObject (session object : CkUlong) : Option HsmObject :=
  (hsm.store session).bind (·.getObject object)

/-- Apply the effect of a call on a session. -/
def finish (handle : CkUlong) (r : Except CkRv Effect) : Answer × Hsm :=
  match r with
  | .error rv => ({ rv }, hsm)
  | .ok e =>
    match hsm.getSession handle with
    -- Calls without a session have nothing to write back.
    | none => (e.answer, hsm)
    | some s =>
      (e.answer, e.events.foldl publish (hsm.setSession (e.after s)))

/-- The label of the session's token for an event. -/
def tokenLabel (handle : CkUlong) : Bytes :=
  match hsm.sessionToken handle with
  | some (_, t) => t.label
  | none => "unknown".toUTF8.toList

variable {hsm} {handle : CkUlong} {r : Except CkRv Effect}

@[simp] theorem getSession_publish (e : P11Event) (h : CkUlong) :
    (hsm.publish e).getSession h = hsm.getSession h := by
  unfold publish
  split_ifs <;> rfl

@[simp] theorem getSession_foldl_publish (es : List P11Event) (h : CkUlong) :
    (es.foldl publish hsm).getSession h = hsm.getSession h := by
  induction es generalizing hsm with
  | nil => rfl
  | cons e es ih => rw [List.foldl_cons, ih, getSession_publish]

@[simp] theorem initialized_publish (e : P11Event) :
    (hsm.publish e).initialized = hsm.initialized := by
  unfold publish
  split_ifs <;> rfl

@[simp] theorem initialized_foldl_publish (es : List P11Event) :
    (es.foldl publish hsm).initialized = hsm.initialized := by
  induction es generalizing hsm with
  | nil => rfl
  | cons e es ih => rw [List.foldl_cons, ih, initialized_publish]

@[simp] theorem initialized_finish (h : CkUlong) (r : Except CkRv Effect) :
    (hsm.finish h r).2.initialized = hsm.initialized := by
  cases r with
  | error rv => rfl
  | ok e =>
    unfold finish
    cases hsm.getSession h with
    | none => rfl
    | some s =>
      rw [initialized_foldl_publish]
      rfl

theorem finish_answer (e : Effect) : (hsm.finish handle (.ok e)).1 = e.answer := by
  unfold finish
  cases hsm.getSession handle <;> rfl

theorem getSession_finish (h : CkUlong) :
    (hsm.finish handle r).2.getSession h =
      match r with
      | .error _ => hsm.getSession h
      | .ok e =>
        if h = handle then (hsm.getSession handle).map e.after else hsm.getSession h := by
  cases r with
  | error rv => rfl
  | ok e =>
    cases hs : hsm.getSession handle with
    | none =>
      simp only [finish, hs, Option.map_none]
      split_ifs with hh
      · rw [hh, hs]
      · rfl
    | some s =>
      simp only [finish, hs, getSession_foldl_publish, Option.map_some]
      exact SessionManager.getSession_setSession hs
        ((e.after_handle s).trans (SessionManager.handle_of_getSession hs)) h

theorem store_finish (h : CkUlong) :
    (hsm.finish handle r).2.store h =
      match r with
      | .error _ => hsm.store h
      | .ok e => if h = handle then (hsm.store handle).map (·.edit e.edit) else hsm.store h := by
  unfold store
  rw [getSession_finish]
  cases r with
  | error rv => rfl
  | ok e =>
    by_cases hh : h = handle
    · simp only [if_pos hh, Option.map_map]
      rfl
    · simp only [if_neg hh]

end Hsm

/-! ### Checks at the head of an entry point -/

/-- Refuse the call with a code when the condition holds. -/
def refuseIf (c : Prop) [Decidable c] (rv : CkRv) : Except CkRv Unit :=
  if c then .error rv else .ok ()

/-- Refuse the call with a code when the value is missing. -/
def orRefuse {α : Type} (x : Option α) (rv : CkRv) : Except CkRv α :=
  match x with
  | some a => .ok a
  | none => .error rv

def Hsm.checkInitialized (hsm : Hsm) : Except CkRv Unit :=
  refuseIf (hsm.initialized = false) .cryptokiNotInitialized

section Checks

variable {α β : Type} {c : Prop} [Decidable c] {rv : CkRv} {x : Option α} {f : α → Except CkRv β}
  {g : Unit → Except CkRv β} {b : β}

theorem refuseIf_bind_eq_ok : (refuseIf c rv >>= g) = .ok b ↔ ¬ c ∧ g () = .ok b := by
  unfold refuseIf
  by_cases h : c <;> simp [h, bind, Except.bind]

theorem orRefuse_bind_eq_ok : (orRefuse x rv >>= f) = .ok b ↔ ∃ a, x = some a ∧ f a = .ok b := by
  cases x <;> simp [orRefuse, bind, Except.bind]

theorem bind_eq_ok {r : Except CkRv α} : (r >>= f) = .ok b ↔ ∃ a, r = .ok a ∧ f a = .ok b := by
  cases r <;> simp [bind, Except.bind]

/-- The computation is refused with a code other than `CKR_OK`, or what it returns is bad. -/
def Fails (bad : β → Prop) : Except CkRv β → Prop
  | .error rv => rv ≠ .ok
  | .ok b => bad b

/-- The computation is refused with a code other than `CKR_OK`. -/
def Refused (r : Except CkRv β) : Prop := Fails (fun _ => False) r

variable {bad : β → Prop}

theorem fails_refuseIf_bind (hrv : c → rv ≠ .ok) (hg : ¬ c → Fails bad (g ())) :
    Fails bad (refuseIf c rv >>= g) := by
  unfold refuseIf
  by_cases h : c
  · rw [if_pos h]
    exact hrv h
  · rw [if_neg h]
    exact hg h

theorem fails_check (hrv : rv ≠ .ok) (hg : Fails bad (g ())) : Fails bad (refuseIf c rv >>= g) :=
  fails_refuseIf_bind (fun _ => hrv) fun _ => hg

theorem fails_orRefuse_bind (hrv : rv ≠ .ok) (hf : ∀ a, x = some a → Fails bad (f a)) :
    Fails bad (orRefuse x rv >>= f) := by
  cases x with
  | none => exact hrv
  | some a => exact hf a rfl

theorem fails_orRefuse_some {a : α} (hx : x = some a) (hf : Fails bad (f a)) :
    Fails bad (orRefuse x rv >>= f) := by
  subst hx
  exact hf

theorem fails_bind {r : Except CkRv α} (hr : ∀ rv, r = .error rv → rv ≠ .ok)
    (hf : ∀ a, Fails bad (f a)) : Fails bad (r >>= f) := by
  cases r with
  | error rv => exact hr rv rfl
  | ok a => exact hf a

theorem Refused.bind {r : Except CkRv α} (hr : Refused r) : Fails bad (r >>= f) := by
  cases r with
  | error rv => exact hr
  | ok a => exact hr.elim

end Checks

theorem Hsm.finish_rv_ne {hsm : Hsm} {r : Except CkRv Effect}
    (hr : Fails (fun e => e.answer.rv ≠ .ok) r) (h : CkUlong) : (hsm.finish h r).1.rv ≠ .ok := by
  cases r with
  | error rv => exact hr
  | ok e =>
    rw [finish_answer]
    exact hr

/-- When no refusal says `CKR_OK`, a call that answers it has had an effect. -/
theorem Hsm.exists_of_finish_ok {hsm : Hsm} {h : CkUlong} {r : Except CkRv Effect}
    (hr : Fails (fun _ => True) r) (hok : (hsm.finish h r).1.rv = .ok) : ∃ e, r = .ok e := by
  cases r with
  | error rv => exact absurd hok hr
  | ok e => exact ⟨e, rfl⟩

/-! ### Shared endings -/

/-- `finish_output`: the length goes back always, the bytes only into a buffer that is large
enough. A null buffer is a length query. -/
def finishOutput (out : Bytes) (buf : CkBuf) : Answer :=
  match buf with
  | .null _ => { rv := .ok, len := some out.length }
  | .data old =>
    -- The length needed goes back with the refusal.
    if old.length < out.length then { rv := .bufferTooSmall, len := some out.length }
    else { rv := .ok, len := some out.length, out }

/-- `p11_key_state_error`. -/
def keyStateError (st : KeyState) (forSigning : Bool) : CkRv :=
  if st = .revoked then .keyFunctionNotPermitted
  -- A key that is being rotated out may still verify and decrypt.
  else if forSigning ∧ st ≠ .active then .keyFunctionNotPermitted
  else .ok

/-- Refuse a key by its life-cycle state. -/
def checkKeyState (o : HsmObject) (forSigning : Bool) : Except CkRv Unit :=
  refuseIf (keyStateError o.getKeyState forSigning ≠ .ok) (keyStateError o.getKeyState forSigning)

theorem refused_checkKeyState {o : HsmObject} (ho : o.getKeyState = .revoked) (forSigning : Bool) :
    Refused (checkKeyState o forSigning) := by
  simp [checkKeyState, keyStateError, ho, refuseIf, Refused, Fails]

end VirtualHsm
