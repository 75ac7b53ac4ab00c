import VirtualHsm.Pkcs11.Finalization

/-!
# Multi-part operations

An operation of a session can be given its data in one call, or part by part with a last call that
returns the result. The parts are collected in the session. The last call takes the buffer out,
works on it, and ends the operation like the call for the whole data does.

The two ways agree, for all five kinds of operations. What is in the buffer before the first part
matters, so a failed start over the data of an operation that was left unfinished is set apart.
-/

namespace VirtualHsm

/-- The kinds of operations. -/
inductive OpKind
  | encrypt
  | decrypt
  | digest
  | sign
  | verify
  deriving DecidableEq, Repr

namespace OpKind

/-- The call that starts an operation. A digest has no key. -/
def initCall : OpKind → Option CkMechanism → CkUlong → CryptoCall
  | encrypt, mech, key => .encryptInit mech key
  | decrypt, mech, key => .decryptInit mech key
  | digest, mech, _ => .digestInit mech
  | sign, mech, key => .signInit mech key
  | verify, mech, key => .verifyInit mech key

/-- The call that adds a part. Encryption and decryption may have an output length, which is set to
zero. -/
def updateCall : OpKind → CkBuf → Bool → CryptoCall
  | encrypt, part, pul => .encryptUpdate part pul
  | decrypt, part, pul => .decryptUpdate part pul
  | digest, part, _ => .digestUpdate part
  | sign, part, _ => .signUpdate part
  | verify, part, _ => .verifyUpdate part

/-- The last call: with an output buffer, or with the signature that is to be verified. -/
def finalCall : OpKind → Option CkBuf → CkBuf → CryptoCall
  | encrypt, out, _ => .encryptFinal out
  | decrypt, out, _ => .decryptFinal out
  | digest, out, _ => .digestFinal out
  | sign, out, _ => .signFinal out
  | verify, _, sig => .verifyFinal sig

/-- The call for the whole data. -/
def wholeCall : OpKind → CkBuf → Option CkBuf → CkBuf → CryptoCall
  | encrypt, data, out, _ => .encrypt data out
  | decrypt, data, out, _ => .decrypt data out
  | digest, data, out, _ => .digest data out
  | sign, data, out, _ => .sign data out
  | verify, data, _, sig => .verify data sig

/-- The name of the call for the whole data. -/
def callName : OpKind → String
  | encrypt => "C_Encrypt"
  | decrypt => "C_Decrypt"
  | digest => "C_Digest"
  | sign => "C_Sign"
  | verify => "C_Verify"

/-- The mechanisms that the start of an operation accepts. -/
def accepts : OpKind → CkUlong → Bool
  | encrypt, m | decrypt, m => isEncMech m
  | digest, m => isDigestMech m
  | sign, m | verify, m => isRsaMech m || isEcMech m

end OpKind

/-- The kind of operation that a call uses. -/
def CryptoCall.useKind : CryptoCall → Option OpKind
  | encrypt .. | encryptUpdate .. | encryptFinal .. => some .encrypt
  | decrypt .. | decryptUpdate .. | decryptFinal .. => some .decrypt
  | digest .. | digestUpdate .. | digestKey .. | digestFinal .. => some .digest
  | sign .. | signUpdate .. | signFinal .. => some .sign
  | verify .. | verifyUpdate .. | verifyFinal .. => some .verify
  | encryptInit .. | decryptInit .. | digestInit .. | signInit .. | verifyInit .. => none

section UseKind

variable (kind : OpKind) (data sig : CkBuf) (out : Option CkBuf) (pul : Bool)

@[simp] theorem OpKind.useKind_updateCall : (kind.updateCall data pul).useKind = some kind := by
  cases kind <;> rfl

@[simp] theorem OpKind.useKind_finalCall : (kind.finalCall out sig).useKind = some kind := by
  cases kind <;> rfl

@[simp] theorem OpKind.useKind_wholeCall : (kind.wholeCall data out sig).useKind = some kind := by
  cases kind <;> rfl

end UseKind

namespace Hsm

/-- The update calls for parts, each with its surroundings. -/
def updates (h : CkUlong) (kind : OpKind) (parts : List (Env × CkBuf × Bool)) : List ApiCall :=
  parts.map fun p => .onSession p.1 h (.crypto (kind.updateCall p.2.1 p.2.2))

/-- The bytes of all parts. -/
def allBytes (parts : List (Env × CkBuf × Bool)) : Bytes := parts.flatMap (·.2.1.bytes)

/-- The second state differs from the first in what the session has collected. -/
structure Collected (h : CkUlong) (s : Session) (bytes : Bytes) (hsm hsm' : Hsm) : Prop where
  session : hsm'.getSession h = some { s with opBuf := bytes }
  others : ∀ k ≠ h, hsm'.getSession k = hsm.getSession k
  slots : hsm'.slots = hsm.slots
  publishing : hsm'.publishing = hsm.publishing
  events : hsm'.events = hsm.events

/-- What the end of an operation announces, under the name of the call. -/
def published (be : Backend) (env : Env) (hsm : Hsm) (s : Session) (kind : OpKind) (name : String)
    (data : Bytes) (rv : CkRv) : List P11Event :=
  match kind with
  | .encrypt => if rv = .ok then [hsm.cryptoOpEvent be env s name .encryptCompleted data] else []
  | .decrypt => if rv = .ok then [hsm.cryptoOpEvent be env s name .decryptCompleted data] else []
  -- Signatures go to the dispatcher instead.
  | .digest | .sign => []
  | .verify =>
    if rv = .ok ∨ rv = .signatureInvalid then [hsm.verifyEvent be env s (decide (rv = .ok)) data]
    else []

variable {be : Backend} {env : Env} {hsm hsm' : Hsm} {h : CkUlong} {s : Session} {kind : OpKind}
  {bytes : Bytes} {data part : CkBuf} {out : Option CkBuf} {sig : CkBuf}

/-! ### Parts -/

theorem opSession_of_getSession (hs : hsm.getSession h = some s) (hop : s.opCheck = .ok) :
    hsm.opSession h = .ok s := by
  simp [opSession, orRefuse, hs, hop, Option.filter]

/-- All five update calls do the same, apart from the length that two of them set to zero. -/
theorem exists_cryptoCall_updateCall (kind : OpKind) (part : CkBuf) (pul : Bool) :
    ∃ pul', hsm.cryptoCall be env h (kind.updateCall part pul) = hsm.opUpdate h part pul' := by
  cases kind with
  | encrypt => exact ⟨pul, rfl⟩
  | decrypt => exact ⟨pul, rfl⟩
  | digest | sign | verify => exact ⟨false, rfl⟩

/-- A part is added at the end of the buffer. -/
theorem collected_update (hs : hsm.getSession h = some s) (hop : s.opCheck = .ok)
    (hpart : ¬ part.missing) (kind : OpKind) (pul : Bool) :
    Collected h s (s.opBuf ++ part.bytes) hsm
      (hsm.api be (.onSession env h (.crypto (kind.updateCall part pul)))).2 := by
  obtain ⟨pul', hcall⟩ := @exists_cryptoCall_updateCall be env hsm h kind part pul
  have hcall' : hsm.sessionCall be env h (.crypto (kind.updateCall part pul)) =
      .ok { answer := { rv := .ok, len := if pul' then some 0 else none }
            update := .opUpdate part } := by
    rw [sessionCall, hcall, opUpdate, opSession_of_getSession hs hop]
    simp [refuseIf, hpart, bind, Except.bind, pure, Except.pure]
  rw [api, hcall']
  constructor
  · rw [getSession_finish]
    simp only [if_true, hs, Option.map_some]
    rfl
  · intro k hk
    rw [getSession_finish]
    simp only [hk, if_false]
  · simp only [finish, hs]
    rfl
  · simp only [finish, hs]
    rfl
  · simp only [finish, hs]
    rfl

/-- After any parts, the session has all of them and is otherwise as it was. -/
theorem collected_run (hs : hsm.getSession h = some s) (hop : s.opCheck = .ok)
    {parts : List (Env × CkBuf × Bool)} (hparts : ∀ p ∈ parts, ¬ p.2.1.missing) (kind : OpKind) :
    Collected h s (s.opBuf ++ allBytes parts) hsm (CS.run (api be) hsm (updates h kind parts)) := by
  induction parts generalizing hsm s with
  | nil =>
    refine ⟨?_, fun _ _ => rfl, rfl, rfl, rfl⟩
    rw [allBytes, List.flatMap_nil, List.append_nil]
    exact hs
  | cons p parts ih =>
    have hfirst := @collected_update be p.1 hsm h s p.2.1 hs hop
      (hparts p List.mem_cons_self) kind p.2.2
    -- The session has the same operation, with more in its buffer.
    have hrest := ih hfirst.session hop fun q hq => hparts q (List.mem_cons_of_mem p hq)
    refine ⟨?_, fun k hk => (hrest.others k hk).trans (hfirst.others k hk),
      hrest.slots.trans hfirst.slots, hrest.publishing.trans hfirst.publishing,
      hrest.events.trans hfirst.events⟩
    rw [allBytes, List.flatMap_cons, ← List.append_assoc]
    exact hrest.session

/-! ### Calls that are refused -/

theorem api_of_refused {c : CryptoCall} {rv : CkRv}
    (hcall : hsm.cryptoCall be env h c = .error rv) :
    hsm.api be (.onSession env h (.crypto c)) = ({ rv }, hsm) := by
  rw [api, sessionCall, hcall, finish]

theorem cryptoCall_of_unchecked {rv : CkRv} {c : CryptoCall} (hc : c.useKind ≠ none)
    (hcheck : hsm.opSession h = .error rv) : hsm.cryptoCall be env h c = .error rv := by
  cases c with
  | encryptInit | decryptInit | digestInit | signInit | verifyInit => exact absurd rfl hc
  | encryptUpdate | decryptUpdate | digestUpdate | signUpdate | verifyUpdate =>
    change hsm.opUpdate h _ _ = _
    rw [opUpdate, hcheck]
    rfl
  | encrypt => rw [cryptoCall, cEncrypt, hcheck]; rfl
  | encryptFinal => rw [cryptoCall, cEncryptFinal, hcheck]; rfl
  | decrypt => rw [cryptoCall, cDecrypt, hcheck]; rfl
  | decryptFinal => rw [cryptoCall, cDecryptFinal, hcheck]; rfl
  | digest => rw [cryptoCall, cDigest, hcheck]; rfl
  | digestKey => rw [cryptoCall, cDigestKey, hcheck]; rfl
  | digestFinal => rw [cryptoCall, cDigestFinal, hcheck]; rfl
  | sign => rw [cryptoCall, cSign, hcheck]; rfl
  | signFinal => rw [cryptoCall, cSignFinal, hcheck]; rfl
  | verify => rw [cryptoCall, cVerify, hcheck]; rfl
  | verifyFinal => rw [cryptoCall, cVerifyFinal, hcheck]; rfl

theorem run_updates_of_inactive (hnone : hsm.opSession h = .error .operationNotInitialized)
    (kind : OpKind) (parts : List (Env × CkBuf × Bool)) :
    CS.run (api be) hsm (updates h kind parts) = hsm := by
  induction parts with
  | nil => rfl
  | cons p parts ih =>
    have hcall : hsm.cryptoCall be p.1 h (kind.updateCall p.2.1 p.2.2) =
        .error .operationNotInitialized := cryptoCall_of_unchecked (by simp) hnone
    rw [updates, List.map_cons, CS.run_cons, api_of_refused hcall]
    exact ih

/-! ### The start -/

theorem opBegin_eq (hs : hsm.getSession h = some s) (mech key : CkUlong) (needKey : Bool) :
    hsm.opBegin h mech key needKey =
      if hsm.initialized = false then .error .cryptokiNotInitialized
      else if needKey = true ∧ key = ckInvalidHandle then .error .keyHandleInvalid
      else if s.operationInitialized = true ∧ s.activeMech ≠ 0 then .error .operationActive
      else .ok (.opBegin mech key) := by
  rw [opBegin, checkInitialized, hs, refuseIf, refuseIf]
  by_cases hinit : hsm.initialized = false
  · rw [if_pos hinit, if_pos hinit]
    rfl
  rw [if_neg hinit, if_neg hinit]
  split_ifs with hkey hactive
  · rfl
  · have hrv : (s.opBegin mech key).1 = .operationActive := by
      rw [Session.opBegin, if_pos hactive]
    simp [orRefuse, hrv, refuseIf, bind, Except.bind]
  · have hrv : (s.opBegin mech key).1 = .ok := by
      rw [Session.opBegin, if_neg hactive]
    simp [orRefuse, hrv, refuseIf, bind, Except.bind, pure, Except.pure]

/-- An operation is refused, or begins with the mechanism, the key and nothing collected. -/
theorem opBegin_cases (mech key : CkUlong) (needKey : Bool) :
    (∃ rv, hsm.opBegin h mech key needKey = .error rv ∧ rv ≠ .ok) ∨
    ∃ s, hsm.getSession h = some s ∧ hsm.opBegin h mech key needKey = .ok (.opBegin mech key) ∧
      (SessionUpdate.opBegin mech key).run s =
        { s with activeMech := mech, signKey := key, opBuf := [] } := by
  cases hs : hsm.getSession h with
  | none =>
    left
    rw [opBegin, checkInitialized, hs, refuseIf, refuseIf]
    split_ifs
    · exact ⟨_, rfl, by decide⟩
    · exact ⟨_, rfl, by decide⟩
    · exact ⟨_, rfl, by decide⟩
    · exact ⟨_, rfl, by decide⟩
  | some s =>
    rw [opBegin_eq hs]
    split_ifs with hinit hkey hactive
    · exact .inl ⟨_, rfl, by decide⟩
    · exact .inl ⟨_, rfl, by decide⟩
    · exact .inl ⟨_, rfl, by decide⟩
    · refine .inr ⟨s, rfl, rfl, ?_⟩
      simp only [SessionUpdate.opBegin, Session.opBegin, if_neg hactive]

theorem cipherParams_keeps {m : CkMechanism} {u : SessionUpdate} (hu : cipherParams m = some u)
    (x : Session) : (u.run x).activeMech = x.activeMech ∧ (u.run x).opBuf = x.opBuf := by
  unfold cipherParams at hu
  split_ifs at hu
  · split at hu
    · cases hu
      exact ⟨rfl, rfl⟩
    · cases hu
  · split at hu <;> · cases hu; exact ⟨rfl, rfl⟩
  · cases hu
    exact ⟨rfl, rfl⟩

/-- What begins an operation: the mechanism is one of its kind, and nothing is collected yet. When
the parameters are refused, which comes after the beginning, the code is not `CKR_OK`. -/
structure Begun (kind : OpKind) (m : CkMechanism) (s : Session) (e : Effect) : Prop where
  accepts : kind.accepts m.mechanism = true
  activeMech : (e.after s).activeMech = m.mechanism
  opBuf : (e.after s).opBuf = []
  rv : e.answer.rv = .ok ∨ e.answer.rv = .mechanismParamInvalid

/-- The checks that all starts make, in their order, before `rest` has the update. -/
theorem init_cases (supported : CkUlong → Bool) (mech : Option CkMechanism) (key : CkUlong)
    (needKey : Bool) (rest : CkMechanism → SessionUpdate → Except CkRv Effect) : let r := do
      let m ← orRefuse mech .argumentsBad
      refuseIf (supported m.mechanism = false) .mechanismInvalid
      let begun ← hsm.opBegin h m.mechanism key needKey
      rest m begun
    (∃ rv, r = .error rv ∧ rv ≠ .ok) ∨
    ∃ m s, mech = some m ∧ hsm.getSession h = some s ∧ supported m.mechanism = true ∧
      r = rest m (.opBegin m.mechanism key) ∧
      (SessionUpdate.opBegin m.mechanism key).run s =
        { s with activeMech := m.mechanism, signKey := key, opBuf := [] } := by
  intro r
  cases mech with
  | none => exact .inl ⟨.argumentsBad, rfl, by decide⟩
  | some m =>
    by_cases haccepts : supported m.mechanism = false
    · refine .inl ⟨.mechanismInvalid, ?_, by decide⟩
      simp [r, orRefuse, refuseIf, haccepts, bind, Except.bind]
    rcases @opBegin_cases hsm h m.mechanism key needKey with
      ⟨rv, hbegin, hrv⟩ | ⟨s, hs, hbegin, hrun⟩
    · refine .inl ⟨rv, ?_, hrv⟩
      simp [r, orRefuse, refuseIf, haccepts, hbegin, bind, Except.bind]
    · refine .inr ⟨m, s, rfl, hs, by simpa using haccepts, ?_, hrun⟩
      simp [r, orRefuse, refuseIf, haccepts, hbegin, bind, Except.bind]

theorem cipherInit_cases (mech : Option CkMechanism) (key : CkUlong)
    (hkind : kind.accepts = isEncMech) :
    (∃ rv, hsm.cipherInit h mech key = .error rv ∧ rv ≠ .ok) ∨
    ∃ m s e, mech = some m ∧ hsm.getSession h = some s ∧ hsm.cipherInit h mech key = .ok e ∧
      Begun kind m s e := by
  -- What follows the begin is read off from the call.
  refine (init_cases isEncMech mech key true _).imp id ?_
  rintro ⟨m, s, hmech, hs, haccepts, hr, hrun⟩
  have htrue : kind.accepts m.mechanism = true := hkind ▸ haccepts
  cases hparams : cipherParams m with
  | none =>
    simp only [hparams] at hr
    refine ⟨m, s, _, hmech, hs, hr, htrue, ?_, ?_, .inr rfl⟩
    all_goals simp only [Effect.after, hrun]
  | some params =>
    obtain ⟨hkeep, hbuf⟩ := cipherParams_keeps hparams
      { s with activeMech := m.mechanism, signKey := key, opBuf := [] }
    simp only [hparams] at hr
    refine ⟨m, s, _, hmech, hs, hr, htrue, ?_, ?_, .inl rfl⟩
    · simp only [Effect.after, SessionUpdate.andThen, hrun, hkeep]
    · simp only [Effect.after, SessionUpdate.andThen, hrun, hbuf]

theorem plainInit_cases (supported : CkUlong → Bool) (mech : Option CkMechanism) (key : CkUlong)
    (needKey : Bool) (hkind : kind.accepts = supported) :
    (∃ rv, hsm.plainInit supported h mech key needKey = .error rv ∧ rv ≠ .ok) ∨
    ∃ m s e, mech = some m ∧ hsm.getSession h = some s ∧
      hsm.plainInit supported h mech key needKey = .ok e ∧ Begun kind m s e := by
  rcases init_cases supported mech key needKey fun _ begun =>
      pure { answer := { rv := .ok }, update := begun } with
    hrefused | ⟨m, s, hmech, hs, haccepts, hr, hrun⟩
  · exact .inl hrefused
  · refine .inr ⟨m, s, _, hmech, hs, hr, hkind ▸ haccepts, ?_, ?_, .inl rfl⟩
    all_goals simp only [Effect.after, hrun]

/-- A call that starts an operation is refused, or begins it. -/
theorem initCall_cases (kind : OpKind) (mech : Option CkMechanism) (key : CkUlong) :
    (∃ rv, hsm.cryptoCall be env h (kind.initCall mech key) = .error rv ∧ rv ≠ .ok) ∨
    ∃ m s e, mech = some m ∧ hsm.getSession h = some s ∧
      hsm.cryptoCall be env h (kind.initCall mech key) = .ok e ∧ Begun kind m s e := by
  cases kind with
  | encrypt | decrypt => exact cipherInit_cases mech key rfl
  | digest => exact plainInit_cases isDigestMech mech ckInvalidHandle false rfl
  | sign | verify => exact plainInit_cases (fun m => isRsaMech m || isEcMech m) mech key true rfl

/-- An operation that is open after its start has nothing collected, unless the start was refused
over the data of an operation that was open already. -/
theorem opBuf_of_initCall {mech : Option CkMechanism} {key : CkUlong} {s' : Session}
    (hs' : (hsm.api be (.onSession env h (.crypto (kind.initCall mech key)))).2.getSession h =
      some s')
    (hop : s'.opCheck = .ok)
    (hfresh : (hsm.api be (.onSession env h (.crypto (kind.initCall mech key)))).1.rv = .ok ∨
      ∀ s, hsm.getSession h = some s → s.opCheck = .ok → s.opBuf = []) : s'.opBuf = [] := by
  rcases @initCall_cases be env hsm h kind mech key with
    ⟨rv, hcall, hrv⟩ | ⟨m, s, e, -, hs, hcall, hbegun⟩
  · rw [api_of_refused hcall] at hs' hfresh
    exact hfresh.resolve_left hrv s' hs' hop
  · rw [api, sessionCall, hcall, getSession_finish] at hs'
    simp only [if_true, hs, Option.map_some, Option.some.injEq] at hs'
    rw [← hs']
    exact hbegun.opBuf

/-! ### The last call -/

section Collected

variable (hc : Collected h s bytes hsm hsm') (hs : hsm.getSession h = some s)
include hc hs

theorem tokenLabel_of_collected : hsm'.tokenLabel s.handle = hsm.tokenLabel s.handle := by
  have htoken : hsm'.getToken s.slotId = hsm.getToken s.slotId := by
    rw [getToken, hc.slots, getToken]
  rw [SessionManager.handle_of_getSession hs]
  simp only [tokenLabel, sessionToken, hc.session, hs, htoken]
  cases hsm.getToken s.slotId <;> rfl

theorem cipherEnd_of_collected (opName : String) (type : EventType) (data : Bytes)
    (r : Except CkRv Bytes) (out : Option CkBuf) :
    hsm'.cipherEnd be env { s with opBuf := bytes } opName type data r out =
      hsm.cipherEnd be env s opName type data r out := by
  have hevent : hsm'.cryptoOpEvent be env { s with opBuf := bytes } opName type data =
      hsm.cryptoOpEvent be env s opName type data := by
    simp only [cryptoOpEvent, tokenLabel_of_collected hc hs]
    rfl
  simp only [cipherEnd, hevent]

theorem signEnd_of_collected (data : Bytes) (out : Option CkBuf) :
    hsm'.signEnd be env { s with opBuf := bytes } data out = hsm.signEnd be env s data out := by
  have hinput (k : be.Pkey) (sig : Bytes) :
      hsm'.dispatchInput be env { s with opBuf := bytes } k data sig =
        hsm.dispatchInput be env s k data sig := by
    simp only [dispatchInput, tokenLabel_of_collected hc hs]
    rfl
  have hdispatch (sig : Bytes) :
      hsm'.dispatchSignResult be env { s with opBuf := bytes } data sig =
        hsm.dispatchSignResult be env s data sig := by
    simp only [dispatchSignResult, hinput]
    rfl
  have hsign : Session.doSign be env { s with opBuf := bytes } data = s.doSign be env data := rfl
  simp only [signEnd, hsign, hdispatch]

theorem verifyEnd_of_collected (data sig : Bytes) :
    hsm'.verifyEnd be env { s with opBuf := bytes } data sig = hsm.verifyEnd be env s data sig := by
  have hevent (valid : Bool) : hsm'.verifyEvent be env { s with opBuf := bytes } valid data =
      hsm.verifyEvent be env s valid data := by
    simp only [verifyEvent, tokenLabel_of_collected hc hs]
    rfl
  have hcode : verifyCode be { s with opBuf := bytes } data sig = verifyCode be s data sig := rfl
  simp only [verifyEnd, hevent, hcode]

end Collected

/-- Only the event knows the name of the call. -/
theorem exists_cipherEnd_eq (type : EventType) (data : Bytes) (r : Except CkRv Bytes)
    (out : Option CkBuf) :
    ∃ answer, ∃ rv : CkRv, ∀ opName, hsm.cipherEnd be env s opName type data r out =
      { answer, update := .opEnd
        events := if rv = .ok then [hsm.cryptoOpEvent be env s opName type data] else [] } := by
  cases r with
  | error rv => exact ⟨{ rv }, .argumentsBad, fun _ => rfl⟩
  | ok result => exact ⟨finishOut result out, (finishOut result out).rv, fun _ => rfl⟩

theorem exists_signEnd_eq (data : Bytes) (out : Option CkBuf) :
    ∃ answer, hsm.signEnd be env s data out = { answer, update := .opEnd } := by
  rw [signEnd]
  cases s.doSign be env data with
  | error rv => exact ⟨_, rfl⟩
  | ok sig => exact ⟨_, rfl⟩

/-- The last call does with what was collected what the other call does with the data: it is refused
alike, or answers alike, ends the operation and announces the same. -/
theorem finalCall_cases (hc : Collected h s bytes hsm hsm') (hs : hsm.getSession h = some s)
    (hop : s.opCheck = .ok) (hdata : ¬ data.missing) (hbytes : data.bytes = bytes)
    (kind : OpKind) (out : Option CkBuf) (sig : CkBuf) :
    (kind = .verify ∧ sig.missing ∧
      hsm'.cryptoCall be env h (kind.finalCall out sig) = .error .argumentsBad ∧
      hsm.cryptoCall be env h (kind.wholeCall data out sig) = .error .argumentsBad) ∨
    ∃ answer rv,
      hsm'.cryptoCall be env h (kind.finalCall out sig) = .ok
        { answer, update := .opEnd
          events := published be env hsm s kind (kind.callName ++ "Final") bytes rv } ∧
      hsm.cryptoCall be env h (kind.wholeCall data out sig) = .ok
        { answer, update := .opEnd
          events := published be env hsm s kind kind.callName bytes rv } := by
  have hop' : hsm'.opSession h = .ok { s with opBuf := bytes } :=
    opSession_of_getSession hc.session hop
  have hop := opSession_of_getSession hs hop
  subst hbytes
  have hgiven : refuseIf data.missing .argumentsBad = .ok () := if_neg hdata
  cases kind with
  | encrypt =>
    right
    obtain ⟨answer, rv, hend⟩ := @exists_cipherEnd_eq be env hsm s .encryptCompleted data.bytes
      (s.doEncrypt be env data.bytes) out
    refine ⟨answer, rv, ?_, ?_⟩
    · rw [OpKind.finalCall, cryptoCall, cEncryptFinal, hop']
      exact congrArg Except.ok ((cipherEnd_of_collected hc hs ..).trans (hend "C_EncryptFinal"))
    · rw [OpKind.wholeCall, cryptoCall, cEncrypt, hop, hgiven]
      exact congrArg Except.ok (hend "C_Encrypt")
  | decrypt =>
    right
    obtain ⟨answer, rv, hend⟩ := @exists_cipherEnd_eq be env hsm s .decryptCompleted data.bytes
      (s.doDecrypt be data.bytes) out
    refine ⟨answer, rv, ?_, ?_⟩
    · rw [OpKind.finalCall, cryptoCall, cDecryptFinal, hop']
      exact congrArg Except.ok ((cipherEnd_of_collected hc hs ..).trans (hend "C_DecryptFinal"))
    · rw [OpKind.wholeCall, cryptoCall, cDecrypt, hop, hgiven]
      exact congrArg Except.ok (hend "C_Decrypt")
  | digest =>
    right
    refine ⟨finishOut (be.hash (mechToHash s.activeMech) data.bytes) out, .ok, ?_, ?_⟩
    · rw [OpKind.finalCall, cryptoCall, cDigestFinal, hop']
      rfl
    · rw [OpKind.wholeCall, cryptoCall, cDigest, hop, hgiven]
      rfl
  | sign =>
    right
    obtain ⟨answer, hend⟩ := @exists_signEnd_eq be env hsm s data.bytes out
    refine ⟨answer, .ok, ?_, ?_⟩
    · rw [OpKind.finalCall, cryptoCall, cSignFinal, hop']
      exact congrArg Except.ok ((signEnd_of_collected hc hs ..).trans hend)
    · rw [OpKind.wholeCall, cryptoCall, cSign, hop, hgiven]
      exact congrArg Except.ok hend
  | verify =>
    rw [OpKind.finalCall, cryptoCall, cVerifyFinal, hop', OpKind.wholeCall, cryptoCall, cVerify,
      hop, hgiven]
    by_cases hsig : sig.missing
    · left
      have hrefuse : refuseIf sig.missing .argumentsBad = .error .argumentsBad := if_pos hsig
      rw [hrefuse]
      exact ⟨rfl, hsig, rfl, rfl⟩
    · right
      have haccept : refuseIf sig.missing .argumentsBad = .ok () := if_neg hsig
      rw [haccept]
      refine ⟨{ rv := verifyCode be s data.bytes sig.bytes },
        verifyCode be s data.bytes sig.bytes, ?_, rfl⟩
      exact congrArg Except.ok (verifyEnd_of_collected hc hs ..)

theorem api_of_ended {c : CryptoCall} {answer : Answer} {events : List P11Event}
    (hs : hsm.getSession h = some s)
    (hcall : hsm.cryptoCall be env h c = .ok { answer, update := .opEnd, events }) :
    hsm.api be (.onSession env h (.crypto c)) =
      (answer, events.foldl publish (hsm.setSession s.opEnd)) := by
  rw [api, sessionCall, hcall, finish]
  simp only [hs]
  rfl

theorem getSession_of_ended (hs : hsm.getSession h = some s) (events : List P11Event)
    (k : CkUlong) :
    (events.foldl publish (hsm.setSession s.opEnd)).getSession k =
      if k = h then some s.opEnd else hsm.getSession k := by
  rw [getSession_foldl_publish]
  have hhandle : s.opEnd.handle = h := by
    rw [← SessionManager.handle_of_getSession hs]
    rfl
  exact SessionManager.getSession_setSession hs hhandle k

/-- Publishing looks at nothing but the bus. -/
theorem events_foldl_publish_congr (hp : hsm'.publishing = hsm.publishing)
    (he : hsm'.events = hsm.events) (es : List P11Event) :
    (es.foldl publish hsm').events = (es.foldl publish hsm).events := by
  induction es generalizing hsm hsm' with
  | nil => exact he
  | cons e es ih =>
    rw [List.foldl_cons, List.foldl_cons]
    cases hon : hsm.publishing with
    | false =>
      have hoff : hsm'.publishing = false := hp.trans hon
      simp only [publish, hon, hoff, Bool.false_eq_true, if_false]
      exact ih hp he
    | true =>
      have hon' : hsm'.publishing = true := hp.trans hon
      simp only [publish, hon, hon', if_true]
      exact ih rfl (congrArg (e :: ·) he)

/-! ### The whole operation -/

/-- On sessions that agree but for the data collected, the last call and the call for the whole data
answer alike and announce the same. Unless they are refused, they leave the same sessions. -/
theorem Collected.final_eq_whole (hc : Collected h s data.bytes hsm hsm')
    (hs : hsm.getSession h = some s) (hop : s.opCheck = .ok) (hdata : ¬ data.missing)
    (kind : OpKind) (out : Option CkBuf) (sig : CkBuf) :
    let final := hsm'.api be (.onSession env h (.crypto (kind.finalCall out sig)))
    let whole := hsm.api be (.onSession env h (.crypto (kind.wholeCall data out sig)))
    (∃ rv,
      final.2.events = (List.foldl publish hsm
        (published be env hsm s kind (kind.callName ++ "Final") data.bytes rv)).events ∧
      whole.2.events = (List.foldl publish hsm
        (published be env hsm s kind kind.callName data.bytes rv)).events) ∧
    final.1 = whole.1 ∧
    (¬ (kind = .verify ∧ sig.missing) → ∀ k, final.2.getSession k = whole.2.getSession k) := by
  intro final whole
  rcases @finalCall_cases be env hsm hsm' h s data.bytes data hc hs hop hdata rfl kind out sig with
    ⟨hkind, hsig, hfinal, hwhole⟩ | ⟨answer, rv, hfinal, hwhole⟩
  · have hfinal : final = ({ rv := .argumentsBad }, hsm') := api_of_refused hfinal
    have hwhole : whole = ({ rv := .argumentsBad }, hsm) := api_of_refused hwhole
    refine ⟨⟨.argumentsBad, ?_⟩, by rw [hfinal, hwhole], fun hnot => absurd ⟨hkind, hsig⟩ hnot⟩
    -- A refusal announces nothing.
    subst hkind
    rw [hfinal, hwhole]
    exact ⟨hc.events, rfl⟩
  · have hfinal := api_of_ended hc.session hfinal
    have hwhole := api_of_ended hs hwhole
    refine ⟨⟨rv, ?_, ?_⟩, ?_, fun _ k => ?_⟩
    · rw [show final = _ from hfinal]
      apply events_foldl_publish_congr
      · exact hc.publishing
      · exact hc.events
    · rw [show whole = _ from hwhole]
      apply events_foldl_publish_congr
      · rfl
      · rfl
    · rw [show final = _ from hfinal, show whole = _ from hwhole]
    · rw [show final = _ from hfinal, show whole = _ from hwhole, getSession_of_ended hs,
        getSession_of_ended hc.session]
      by_cases hk : k = h
      · rw [if_pos hk, if_pos hk]
        rfl
      · rw [if_neg hk, if_neg hk]
        exact hc.others k hk

/-- Starting an operation and giving it its data part by part is the same as giving them at once:
the last call finds all of the data and otherwise the same session, and answers and announces the
same. Unless it is refused for a missing signature, it leaves the same sessions. -/
theorem multipart_eq (be : Backend) (kind : OpKind) (hsm : Hsm) (h : CkUlong) (env₀ env : Env)
    (mech : Option CkMechanism) (key : CkUlong) (parts : List (Env × CkBuf × Bool)) (data : CkBuf)
    (out : Option CkBuf) (sig : CkBuf) (hparts : ∀ p ∈ parts, ¬ p.2.1.missing)
    (hdata : ¬ data.missing) (hbytes : data.bytes = allBytes parts)
    (hfresh : (hsm.api be (.onSession env₀ h (.crypto (kind.initCall mech key)))).1.rv = .ok ∨
      ∀ s, hsm.getSession h = some s → s.opCheck = .ok → s.opBuf = []) :
    let begun := (hsm.api be (.onSession env₀ h (.crypto (kind.initCall mech key)))).2
    let collected := CS.run (api be) begun (updates h kind parts)
    let final := collected.api be (.onSession env h (.crypto (kind.finalCall out sig)))
    let whole := begun.api be (.onSession env h (.crypto (kind.wholeCall data out sig)))
    (∀ s, begun.getSession h = some s → s.opCheck = .ok →
      collected.getSession h = some { s with opBuf := data.bytes } ∧
      ∃ rv,
        final.2.events = (List.foldl publish begun
          (published be env begun s kind (kind.callName ++ "Final") data.bytes rv)).events ∧
        whole.2.events = (List.foldl publish begun
          (published be env begun s kind kind.callName data.bytes rv)).events) ∧
    final.1 = whole.1 ∧
    (¬ (kind = .verify ∧ sig.missing) → ∀ k, final.2.getSession k = whole.2.getSession k) := by
  intro begun collected final whole
  by_cases hopen : ∃ s, begun.getSession h = some s ∧ s.opCheck = .ok
  · obtain ⟨s, hs, hop⟩ := hopen
    have hempty : s.opBuf = [] := opBuf_of_initCall hs hop hfresh
    have hc : Collected h s data.bytes begun collected := by
      have hrun := @collected_run be begun h s hs hop parts hparts kind
      rwa [hempty, List.nil_append, ← hbytes] at hrun
    obtain ⟨hevents, hanswer, hsessions⟩ :=
      @Collected.final_eq_whole be env begun collected h s data hc hs hop hdata kind out sig
    refine ⟨fun s' hs' _ => ?_, hanswer, hsessions⟩
    obtain rfl : s = s' := Option.mem_unique hs hs'
    exact ⟨hc.session, hevents⟩
  · -- There is no operation, so all calls are refused.
    have hnone : begun.opSession h = .error .operationNotInitialized := by
      rw [opSession]
      cases hs : begun.getSession h with
      | none => rfl
      | some s =>
        have hop : s.opCheck ≠ .ok := fun hop => hopen ⟨s, hs, hop⟩
        simp [orRefuse, Option.filter, hop]
    have hsame : collected = begun := run_updates_of_inactive hnone kind parts
    have hfinal : final = ({ rv := .operationNotInitialized }, begun) := by
      change collected.api be _ = _
      rw [hsame]
      exact api_of_refused (cryptoCall_of_unchecked (by simp) hnone)
    have hwhole : whole = ({ rv := .operationNotInitialized }, begun) :=
      api_of_refused (cryptoCall_of_unchecked (by simp) hnone)
    refine ⟨fun s hs hop => absurd ⟨s, hs, hop⟩ hopen, ?_, fun _ k => ?_⟩
    · rw [hfinal, hwhole]
    · rw [hfinal, hwhole]

/-- A digest over three parts, one of them a null pointer. -/
theorem multipart_threeParts : let begun := ((CS.run (api .toy) {} openOne).api .toy
      (.onSession {} 1 (.crypto (.digestInit (some ⟨ckmSha256, .absent⟩))))).2
    let parts := [({}, .data [1], false), ({}, .null 0, false), ({}, .data [2, 3], false)]
    let out := some (CkBuf.data [0, 0, 0, 0])
    ((CS.run (api .toy) begun (updates 1 .digest parts)).api .toy
        (.onSession {} 1 (.crypto (.digestFinal out)))).1 =
      (begun.api .toy (.onSession {} 1 (.crypto (.digest (.data [1, 2, 3]) out)))).1 ∧
    (begun.api .toy (.onSession {} 1 (.crypto (.digest (.data [1, 2, 3]) out)))).1.out =
      [1, 2, 3] := by
  intro begun parts out
  have heq := multipart_eq .toy .digest (CS.run (api .toy) {} openOne) 1 {} {}
    (some ⟨ckmSha256, .absent⟩) 0 parts (.data [1, 2, 3]) out (.null 0) (by decide) (by decide) rfl
    (.inl rfl)
  exact ⟨heq.2.1, rfl⟩

end Hsm

end VirtualHsm
