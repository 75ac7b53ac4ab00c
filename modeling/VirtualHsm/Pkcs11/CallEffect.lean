import VirtualHsm.Pkcs11.Api

/-!
# The effect of each call on its session

For every call on a session, the edit of the object store and the update of the rest of the session
that it can have. Invariants of sessions and of objects follow from these, without the entry points
being opened again.
-/

namespace VirtualHsm

/-! ### Results of calls -/

/-- Whatever the computation returns satisfies the predicate. -/
def Yields {β : Type} (P : β → Prop) (r : Except CkRv β) : Prop := ∀ b, r = .ok b → P b

section Yields

variable {α β : Type} {P : β → Prop} {r : Except CkRv α} {f : α → Except CkRv β}

theorem yields_ok {b : β} (hb : P b) : Yields P (.ok b : Except CkRv β) := by
  intro b' h
  cases h
  exact hb

theorem yields_bind (hf : ∀ a, r = .ok a → Yields P (f a)) : Yields P (r >>= f) := by
  intro b h
  obtain ⟨a, ha, hb⟩ := bind_eq_ok.mp h
  exact hf a ha b hb

theorem Yields.imp {P' : β → Prop} {r : Except CkRv β} (h : Yields P r) (himp : ∀ b, P b → P' b) :
    Yields P' r :=
  fun b hb => himp b (h b hb)

end Yields

/-! ### Edits and updates by call -/

/-- The update changes nothing but the search. -/
inductive SessionUpdate.OnlySearch : SessionUpdate → Prop
  | none : OnlySearch none
  | setFindResults (handles : List CkUlong) : OnlySearch (setFindResults handles)
  | findNextBatch (maxCount : Nat) : OnlySearch (findNextBatch maxCount)
  | clearFindResults : OnlySearch clearFindResults

/-- The update changes nothing but the operation. -/
inductive SessionUpdate.OnlyOperation : SessionUpdate → Prop
  | none : OnlyOperation none
  | opBegin (mech key : CkUlong) : OnlyOperation (opBegin mech key)
  | opEnd : OnlyOperation opEnd
  | opUpdate (data : CkBuf) : OnlyOperation (opUpdate data)
  | setGcmParams (iv aad : Bytes) : OnlyOperation (setGcmParams iv aad)
  | setOaepParams (mgf1 : String) (label : Bytes) : OnlyOperation (setOaepParams mgf1 label)
  | andThen {u v : SessionUpdate} (hu : OnlyOperation u) (hv : OnlyOperation v) :
      OnlyOperation (andThen u v)

/-- The update of the session that a call on objects makes. -/
def ObjectCall.Updates (u : SessionUpdate) : ObjectCall → Prop
  | findObjectsInit _ => ∃ handles, u = .setFindResults handles
  | findObjects _ maxCount _ => u = .findNextBatch maxCount
  | findObjectsFinal => u = .clearFindResults
  | _ => u = .none

theorem ObjectCall.Updates.onlySearch {u : SessionUpdate} {c : ObjectCall} (h : c.Updates u) :
    u.OnlySearch := by
  cases c with
  | findObjectsInit templ =>
    obtain ⟨handles, rfl⟩ := h
    exact .setFindResults handles
  | findObjects ph maxCount pul =>
    cases h
    exact .findNextBatch maxCount
  | findObjectsFinal =>
    cases h
    exact .clearFindResults
  | _ =>
    cases h
    exact .none

def ObjectCall.Edits (edit : StoreEdit) : ObjectCall → Prop
  | createObject .. | copyObject .. => ∃ b, edit = .build b
  | destroyObject object => edit = .destroy object
  | setAttributeValue object templ => edit = .setAttributes object templ
  -- The remaining calls read.
  | _ => edit = .keep

def KeyCall.Edits (edit : StoreEdit) : KeyCall → Prop
  | generateKey .. | unwrapKey .. | deriveKey .. => ∃ b, edit = .build b
  | generateKeyPair .. => ∃ pub priv, edit = .buildPair pub priv ckInvalidHandle
  | rotateKeypair old .. => ∃ pub priv, edit = .buildPair pub priv old
  | wrapKey .. => edit = .keep

/-- The edits of the store that a call can make. -/
def SessionCall.Edits (edit : StoreEdit) : SessionCall → Prop
  | object c => c.Edits edit
  | key c => c.Edits edit
  | crypto _ => edit = .keep

namespace SessionCall

variable {c : SessionCall} {k : CkUlong}

theorem eq_of_edits_setAttributes {templ : List CkAttribute}
    (hc : c.Edits (.setAttributes k templ)) : c = .object (.setAttributeValue k templ) := by
  cases c with
  | object c =>
    cases c with
    | setAttributeValue object templ' =>
      cases hc
      rfl
    | createObject | copyObject => obtain ⟨_, hb⟩ := hc; cases hb
    | _ => cases hc
  | key c =>
    cases c with
    | generateKey | unwrapKey | deriveKey => obtain ⟨_, hb⟩ := hc; cases hb
    | generateKeyPair | rotateKeypair => obtain ⟨_, _, hb⟩ := hc; cases hb
    | wrapKey => cases hc
  | crypto c => cases hc

theorem eq_of_edits_buildPair {pub priv : Built} (hk : k ≠ ckInvalidHandle)
    (hc : c.Edits (.buildPair pub priv k)) :
    ∃ pubTempl privTempl phPub phPriv,
      c = .key (.rotateKeypair k pubTempl privTempl phPub phPriv) := by
  cases c with
  | object c =>
    cases c with
    | createObject | copyObject => obtain ⟨_, hb⟩ := hc; cases hb
    | _ => cases hc
  | key c =>
    cases c with
    | generateKey | unwrapKey | deriveKey => obtain ⟨_, hb⟩ := hc; cases hb
    | generateKeyPair =>
      obtain ⟨_, _, hb⟩ := hc
      cases hb
      exact absurd rfl hk
    | rotateKeypair old pubTempl privTempl phPub phPriv =>
      obtain ⟨_, _, hb⟩ := hc
      cases hb
      exact ⟨pubTempl, privTempl, phPub, phPriv, rfl⟩
    | wrapKey => cases hc
  | crypto c => cases hc

end SessionCall

namespace CryptoCall

/-- The call starts an operation. -/
def isInit : CryptoCall → Bool
  | encryptInit .. | decryptInit .. | digestInit .. | signInit .. | verifyInit .. => true
  | _ => false

/-- The call is the last one of an operation. -/
def isLast : CryptoCall → Bool
  | encrypt .. | encryptFinal .. | decrypt .. | decryptFinal .. | digest .. | digestFinal ..
  | sign .. | signFinal .. | verify .. | verifyFinal .. => true
  | _ => false

/-- What a call that starts no operation does with the one there is: it ends it, or collects data
for it. -/
def Continues (c : CryptoCall) (u : SessionUpdate) : Prop :=
  if c.isLast then u = .opEnd else ∃ data, u = .opUpdate data

theorem Continues.onlyOperation {c : CryptoCall} {u : SessionUpdate}
    (h : c.Continues u) : u.OnlyOperation := by
  unfold Continues at h
  split_ifs at h
  · exact h ▸ .opEnd
  · obtain ⟨data, rfl⟩ := h
    exact .opUpdate data

end CryptoCall

namespace Hsm

variable {be : Backend} {env : Env} {hsm : Hsm} {h : CkUlong}

/-! #### Objects -/

theorem objectCall_yields (c : ObjectCall) :
    Yields (fun e => c.Updates e.update ∧ c.Edits e.edit) (hsm.objectCall h c) := by
  cases c <;> simp only [objectCall, cCreateObject, cCopyObject, cDestroyObject, cGetObjectSize,
    cGetAttributeValue, cSetAttributeValue, cFindObjectsInit, cFindObjects, cFindObjectsFinal]
  all_goals
    repeat (with_reducible apply yields_bind; intro _ _)
    apply yields_ok
  case createObject | copyObject => exact ⟨rfl, _, rfl⟩
  case findObjectsInit => exact ⟨⟨_, rfl⟩, rfl⟩
  all_goals exact ⟨rfl, rfl⟩

theorem onlySearch_objectCall (c : ObjectCall) :
    Yields (fun e => e.update.OnlySearch) (hsm.objectCall h c) :=
  (objectCall_yields c).imp fun _ he => he.1.onlySearch

/-! #### Keys -/

theorem keyCall_yields (c : KeyCall) :
    Yields (fun e => e.update = .none ∧ c.Edits e.edit) (hsm.keyCall be env h c) := by
  cases c <;> simp only [keyCall, cGenerateKey, cGenerateKeyPair, rotateKeypair,
    generateAndStoreKeypair, cWrapKey, cUnwrapKey, cDeriveKey]
  all_goals
    repeat (with_reducible apply yields_bind; intro _ _)
    apply yields_ok
  case generateKeyPair | rotateKeypair => exact ⟨rfl, _, _, rfl⟩
  case wrapKey => exact ⟨rfl, rfl⟩
  all_goals exact ⟨rfl, _, rfl⟩

theorem onlySearch_keyCall (c : KeyCall) :
    Yields (fun e => e.update.OnlySearch) (hsm.keyCall be env h c) :=
  (keyCall_yields c).imp fun _ he => he.1 ▸ .none

/-! #### Operations -/

theorem cipherEnd_spec (s : Session) (opName : String) (type : EventType) (data : Bytes)
    (r : Except CkRv Bytes) (out : Option CkBuf) :
    (hsm.cipherEnd be env s opName type data r out).update = .opEnd ∧
      (hsm.cipherEnd be env s opName type data r out).edit = .keep := by
  cases r <;> exact ⟨rfl, rfl⟩

theorem signEnd_spec (s : Session) (data : Bytes) (out : Option CkBuf) :
    (hsm.signEnd be env s data out).update = .opEnd ∧
      (hsm.signEnd be env s data out).edit = .keep := by
  unfold signEnd
  cases s.doSign be env data <;> exact ⟨rfl, rfl⟩

theorem continuing_yields {c : CryptoCall} (hc : c.isInit = false) :
    Yields (fun e => c.Continues e.update ∧ e.edit = .keep) (hsm.cryptoCall be env h c) := by
  cases c
  case encryptInit | decryptInit | signInit | verifyInit | digestInit => cases hc
  all_goals
    simp only [cryptoCall, cEncrypt, cEncryptUpdate, cEncryptFinal, cDecrypt, cDecryptUpdate,
      cDecryptFinal, cDigest, cDigestUpdate, cDigestKey, cDigestFinal, cSign, cSignUpdate, cSignFinal,
      cVerify, cVerifyUpdate, cVerifyFinal, opUpdate]
    repeat (with_reducible apply yields_bind; intro _ _)
    apply yields_ok
  case encrypt | decrypt | encryptFinal | decryptFinal => exact cipherEnd_spec ..
  case sign | signFinal => exact signEnd_spec ..
  case digest | digestFinal | verify | verifyFinal => exact ⟨rfl, rfl⟩
  all_goals exact ⟨⟨_, rfl⟩, rfl⟩

theorem continues_cryptoCall {c : CryptoCall} (hc : c.isInit = false) :
    Yields (fun e => c.Continues e.update) (hsm.cryptoCall be env h c) :=
  (continuing_yields hc).imp fun _ he => he.1

theorem opBegin_eq_ok {mech key : CkUlong} {needKey : Bool} :
    Yields (fun u => u = SessionUpdate.opBegin mech key) (hsm.opBegin h mech key needKey) := by
  iterate 4 (apply yields_bind; intro _ _)
  exact yields_ok rfl

theorem onlyOperation_cipherParams {m : CkMechanism} {u : SessionUpdate}
    (hu : cipherParams m = some u) : u.OnlyOperation := by
  unfold cipherParams at hu
  split_ifs at hu
  · split at hu
    · cases hu
      exact .setGcmParams _ _
    · cases hu
  · split at hu
    all_goals
      cases hu
      exact .setOaepParams _ _
  · cases hu
    exact .none

theorem cipherInit_yields (mech : Option CkMechanism) (key : CkUlong) :
    Yields (fun e => e.update.OnlyOperation ∧ e.edit = .keep) (hsm.cipherInit h mech key) := by
  apply yields_bind
  intro m _
  apply yields_bind
  intro _ _
  apply yields_bind
  intro u hu
  obtain rfl := opBegin_eq_ok u hu
  -- Parameters that are refused leave the operation begun, and the store alone.
  cases hparams : cipherParams m with
  | none => exact yields_ok ⟨.opBegin _ _, rfl⟩
  | some params =>
    exact yields_ok ⟨.andThen (.opBegin _ _) (onlyOperation_cipherParams hparams), rfl⟩

theorem plainInit_yields (supported : CkUlong → Bool) (mech : Option CkMechanism) (key : CkUlong)
    (needKey : Bool) :
    Yields (fun e => e.update.OnlyOperation ∧ e.edit = .keep)
      (hsm.plainInit supported h mech key needKey) := by
  apply yields_bind
  intro m _
  apply yields_bind
  intro _ _
  apply yields_bind
  intro u hu
  obtain rfl := opBegin_eq_ok u hu
  exact yields_ok ⟨.opBegin _ _, rfl⟩

theorem cryptoCall_yields (c : CryptoCall) :
    Yields (fun e => e.update.OnlyOperation ∧ e.edit = .keep) (hsm.cryptoCall be env h c) := by
  cases hinit : c.isInit with
  | false => exact (continuing_yields hinit).imp fun _ he => ⟨he.1.onlyOperation, he.2⟩
  | true =>
    cases c with
    | encryptInit mech key | decryptInit mech key => exact cipherInit_yields mech key
    | signInit mech key | verifyInit mech key =>
      exact plainInit_yields (fun m => isRsaMech m || isEcMech m) mech key true
    | digestInit mech => exact plainInit_yields isDigestMech mech ckInvalidHandle false
    | _ => cases hinit

theorem onlyOperation_cryptoCall (c : CryptoCall) :
    Yields (fun e => e.update.OnlyOperation) (hsm.cryptoCall be env h c) :=
  (cryptoCall_yields c).imp fun _ he => he.1

/-! ### All calls -/

theorem edits_sessionCall (c : SessionCall) :
    Yields (fun e => c.Edits e.edit) (hsm.sessionCall be env h c) := by
  cases c with
  | object c => exact (objectCall_yields c).imp fun _ he => he.2
  | key c => exact (keyCall_yields c).imp fun _ he => he.2
  | crypto c => exact (cryptoCall_yields c).imp fun _ he => he.2

/-- Only calls on the session itself edit its store. -/
theorem apiEdit_cases (c : ApiCall) :
    hsm.apiEdit be c h = .keep ∨
      ∃ env call, c = .onSession env h call ∧ call.Edits (hsm.apiEdit be c h) := by
  cases c with
  | onSession env session call =>
    cases hcall : hsm.sessionCall be env session call with
    | error rv => exact .inl (by simp only [apiEdit, hcall])
    | ok e =>
      by_cases hsession : session = h
      · subst hsession
        refine .inr ⟨env, call, rfl, ?_⟩
        simp only [apiEdit, hcall, if_true]
        exact edits_sessionCall call e hcall
      · exact .inl (by simp only [apiEdit, hcall, if_neg hsession])
  | _ => exact .inl rfl

variable {c : ApiCall} {k : CkUlong}

theorem eq_of_apiEdit_setAttributes {templ : List CkAttribute}
    (hedit : hsm.apiEdit be c h = .setAttributes k templ) :
    ∃ env, c = .onSession env h (.object (.setAttributeValue k templ)) := by
  rcases hsm.apiEdit_cases c with hkeep | ⟨env, call, hc, hcall⟩
  · cases hedit.symm.trans hkeep
  · rw [hedit] at hcall
    exact ⟨env, SessionCall.eq_of_edits_setAttributes hcall ▸ hc⟩

theorem eq_of_apiEdit_buildPair {pub priv : Built} (hk : k ≠ ckInvalidHandle)
    (hedit : hsm.apiEdit be c h = .buildPair pub priv k) :
    ∃ env pubTempl privTempl phPub phPriv,
      c = .onSession env h (.key (.rotateKeypair k pubTempl privTempl phPub phPriv)) := by
  rcases hsm.apiEdit_cases c with hkeep | ⟨env, call, hc, hcall⟩
  · cases hedit.symm.trans hkeep
  · rw [hedit] at hcall
    obtain ⟨pubTempl, privTempl, phPub, phPriv, rfl⟩ := SessionCall.eq_of_edits_buildPair hk hcall
    exact ⟨env, pubTempl, privTempl, phPub, phPriv, hc⟩

end Hsm

end VirtualHsm
