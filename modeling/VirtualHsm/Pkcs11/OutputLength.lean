import VirtualHsm.Pkcs11.OperationStart

/-!
# Asking for the length of the output

By the convention of the interface, a call with a null pointer for the output returns the length, one
with a short buffer returns `CKR_BUFFER_TOO_SMALL`, and in both cases the operation stays open for a
call with room for the result. Here the calls that end an operation compute the result, look at the
output buffer, and end the operation whatever came of that. The next call finds no operation.

Only a call that is refused for a missing input leaves the operation open, since that is looked at
first.
-/

namespace VirtualHsm

/-- A call that ends an operation with a result: the one for the whole data, or the last one. -/
inductive EndCall
  | whole (data : CkBuf) (out : Option CkBuf)
  | final (out : Option CkBuf)

namespace EndCall

def call (kind : OpKind) : EndCall → CryptoCall
  | whole data out => kind.wholeCall data out (.null 0)
  | final out => kind.finalCall out (.null 0)

def out : EndCall → Option CkBuf
  | whole _ out => out
  | final out => out

/-- The call has a length but no pointer for its input. -/
def Missing : EndCall → Prop
  | whole data _ => data.missing
  | final _ => False

end EndCall

/-- A call on the session, with its surroundings. -/
def endCall (h : CkUlong) (kind : OpKind) (q : Env × EndCall) : ApiCall :=
  .onSession q.1 h (.crypto (q.2.call kind))

/-- The output pointer is null, or the buffer is too small. -/
def EndCall.IsQuery (be : Backend) (h : CkUlong) (kind : OpKind) (hsm : Hsm) (q : Env × EndCall) :
    Prop :=
  (∃ n, q.2.out = some (.null n)) ∨ (hsm.api be (endCall h kind q)).1.rv = .bufferTooSmall

/-- The transition of the module for such calls. -/
def endStep (be : Backend) (h : CkUlong) (kind : OpKind) (hsm : Hsm) (q : Env × EndCall) :
    Answer × Hsm :=
  hsm.api be (endCall h kind q)

/-- If all of the calls are queries, the session `s` has its operation afterwards, and a call that
would have succeeded in their place gives the same result. -/
def SurvivesQueries (be : Backend) (hsm : Hsm) (h : CkUlong) (s : Session) (kind : OpKind)
    (queries : List (Env × EndCall)) : Prop :=
  CS.Guarded (endStep be h kind) (EndCall.IsQuery be h kind) hsm queries →
    (∃ s', (CS.run (endStep be h kind) hsm queries).getSession h = some s' ∧ s.SameOperation s') ∧
      ∀ q, (endStep be h kind hsm q).1.rv = .ok →
        (endStep be h kind (CS.run (endStep be h kind) hsm queries) q).1 =
          (endStep be h kind hsm q).1

namespace Hsm

variable {be : Backend} {hsm : Hsm} {h : CkUlong} {s : Session} {kind : OpKind}
  {q : Env × EndCall} {queries : List (Env × EndCall)}

/-! ### One call -/

theorem isLast_endCall (c : EndCall) : (c.call kind).isLast = true := by
  cases c <;> cases kind <;> rfl

theorem useKind_endCall (c : EndCall) : (c.call kind).useKind = some kind := by
  cases c with
  | whole data out => exact kind.useKind_wholeCall data (.null 0) out
  | final out => exact kind.useKind_finalCall (.null 0) out

section

variable (hs : hsm.getSession h = some s) (hop : s.opCheck = .ok)
include hs hop

theorem endStep_of_missing (hmissing : q.2.Missing) : (endStep be h kind hsm q).2 = hsm := by
  obtain ⟨env, c⟩ := q
  cases c with
  | final out => exact hmissing.elim
  | whole data out =>
    have hrefuse : refuseIf data.missing .argumentsBad = .error .argumentsBad := if_pos hmissing
    have hcall : hsm.cryptoCall be env h (kind.wholeCall data out (.null 0)) =
        .error .argumentsBad := by
      have hop := opSession_of_getSession hs hop
      cases kind with
      | encrypt | decrypt | digest | sign | verify =>
        simp only [OpKind.wholeCall, cryptoCall, cEncrypt, cDecrypt, cDigest, cSign, cVerify, hop,
          hrefuse]
        rfl
    exact congrArg Prod.snd (api_of_refused hcall)

theorem exists_cryptoCall_endCall (hkind : kind ≠ .verify) (hgiven : ¬ q.2.Missing) :
    ∃ e, hsm.cryptoCall be q.1 h (q.2.call kind) = .ok e := by
  obtain ⟨env, c⟩ := q
  have hop := opSession_of_getSession hs hop
  cases c with
  | whole data out =>
    have haccept : refuseIf data.missing .argumentsBad = .ok () := if_neg hgiven
    cases kind with
    | verify => exact absurd rfl hkind
    | encrypt | decrypt | digest | sign =>
      simp only [EndCall.call, OpKind.wholeCall, cryptoCall, cEncrypt, cDecrypt, cDigest, cSign, hop,
        haccept]
      exact ⟨_, rfl⟩
  | final out =>
    cases kind with
    | verify => exact absurd rfl hkind
    | encrypt | decrypt | digest | sign =>
      simp only [EndCall.call, OpKind.finalCall, cryptoCall, cEncryptFinal, cDecryptFinal,
        cDigestFinal, cSignFinal, hop]
      exact ⟨_, rfl⟩

theorem activeMech_of_endCall (hkind : kind ≠ .verify) (hgiven : ¬ q.2.Missing) :
    ∃ s', (endStep be h kind hsm q).2.getSession h = some s' ∧ s'.activeMech = 0 := by
  obtain ⟨e, he⟩ := @exists_cryptoCall_endCall be _ _ _ _ _ hs hop hkind hgiven
  have hlast := @isLast_endCall kind q.2
  have hinit : (q.2.call kind).isInit = false := by
    cases q.2 <;> cases kind <;> rfl
  have hcontinues : (q.2.call kind).Continues e.update := continues_cryptoCall hinit e he
  rw [CryptoCall.Continues, if_pos hlast] at hcontinues
  refine ⟨e.after s, ?_, ?_⟩
  · rw [endStep, endCall, api, sessionCall, he, getSession_finish]
    simp only [if_true, hs, Option.map_some]
  · rw [activeMech_after, hcontinues]
    rfl

end

theorem run_endStep_of_inactive (hs : hsm.getSession h = some s) (hnone : s.activeMech = 0)
    (queries : List (Env × EndCall)) : CS.run (endStep be h kind) hsm queries = hsm := by
  have hcheck : hsm.opSession h = .error .operationNotInitialized := by
    have hop : s.opCheck ≠ .ok := by
      rw [Session.opCheck, if_pos hnone]
      decide
    simp [opSession, orRefuse, hs, hop, Option.filter]
  induction queries with
  | nil => rfl
  | cons q queries ih =>
    have hused : (q.2.call kind).useKind ≠ none := by
      rw [useKind_endCall]
      exact Option.some_ne_none kind
    have hcall : hsm.cryptoCall be q.1 h (q.2.call kind) = .error .operationNotInitialized :=
      cryptoCall_of_unchecked hused hcheck
    rw [CS.run_cons, endStep, endCall, api_of_refused hcall]
    exact ih

/-! ### Sequences of calls -/

section

variable (hs : hsm.getSession h = some s) (hop : s.opCheck = .ok)
include hs hop

theorem run_endStep_of_missing
    (hmissing : ∀ q ∈ queries, q.2.Missing) : CS.run (endStep be h kind) hsm queries = hsm := by
  induction queries with
  | nil => rfl
  | cons q queries ih =>
    rw [CS.run_cons, endStep_of_missing hs hop (hmissing q List.mem_cons_self)]
    exact ih fun p hp => hmissing p (List.mem_cons_of_mem q hp)

/-- After a call with its input, there is no operation. -/
theorem activeMech_run_endStep (hkind : kind ≠ .verify) (hgiven : ∃ q ∈ queries, ¬ q.2.Missing) :
    ∃ s', (CS.run (endStep be h kind) hsm queries).getSession h = some s' ∧ s'.activeMech = 0 := by
  induction queries with
  | nil =>
    obtain ⟨q, hq, -⟩ := hgiven
    cases hq
  | cons q queries ih =>
    rw [CS.run_cons]
    by_cases hq : q.2.Missing
    · rw [endStep_of_missing hs hop hq]
      obtain ⟨p, hp, hpgiven⟩ := hgiven
      rcases List.mem_cons.mp hp with rfl | hrest
      · exact absurd hq hpgiven
      · exact ih ⟨p, hrest, hpgiven⟩
    · -- This call ends the operation, and the rest of them finds none.
      obtain ⟨s', hs', hnone⟩ := @activeMech_of_endCall be _ _ _ _ _ hs hop hkind hq
      rw [run_endStep_of_inactive hs' hnone]
      exact ⟨s', hs', hnone⟩

end

/-- Of an operation that is open, queries leave the operation exactly when every one of them lacks
its input. -/
theorem survivesQueries_iff (be : Backend) (hsm : Hsm) (h : CkUlong) (s : Session) (kind : OpKind)
    (hs : hsm.getSession h = some s) (hactive : s.activeMech ≠ 0) (hkind : kind ≠ .verify)
    (queries : List (Env × EndCall))
    (hqueries : CS.Guarded (endStep be h kind) (EndCall.IsQuery be h kind) hsm queries) :
    SurvivesQueries be hsm h s kind queries ↔ ∀ q ∈ queries, q.2.Missing := by
  have hop : s.opCheck = .ok := by rw [Session.opCheck, if_neg hactive]
  constructor
  · intro hsurvives
    by_contra hgiven
    obtain ⟨⟨s', hs', hsame⟩, -⟩ := hsurvives hqueries
    obtain ⟨s'', hs'', hnone⟩ := @activeMech_run_endStep be _ _ _ _ _ hs hop hkind
      (by simpa only [not_forall, exists_prop] using hgiven)
    obtain rfl := Option.mem_unique hs' hs''
    exact hactive (hsame.activeMech ▸ hnone)
  · intro hmissing _
    rw [run_endStep_of_missing hs hop hmissing]
    exact ⟨⟨s, hs, .refl s⟩, fun _ _ => rfl⟩

/-- The session has begun a digest. -/
def digesting : Hsm :=
  (oneSession.api .toy (.onSession {} 1 (.crypto (.digestInit (some ⟨ckmSha256, .absent⟩))))).2

/-- A query with a length but no pointer for the data. -/
theorem survivesQueries_missing :
    ∃ s, digesting.getSession 1 = some s ∧
      SurvivesQueries .toy digesting 1 s .digest [({}, .whole (.null 5) (some (.null 0)))] := by
  refine ⟨_, rfl, (survivesQueries_iff .toy digesting 1 _ .digest rfl (by decide) (by decide)
    [({}, .whole (.null 5) (some (.null 0)))] ⟨.inl ⟨0, rfl⟩, trivial⟩).mpr ?_⟩
  intro q hq
  rw [List.mem_singleton.mp hq]
  exact (by decide : (CkBuf.null 5).missing)

/-- Asking for the length of a digest ends the operation. -/
theorem not_survivesQueries_digest :
    ∃ s, digesting.getSession 1 = some s ∧
      ¬ SurvivesQueries .toy digesting 1 s .digest [({}, .whole (.data [1]) (some (.null 0)))] := by
  refine ⟨_, rfl, fun hsurvives => ?_⟩
  obtain ⟨⟨s', hs', hsame⟩, -⟩ := hsurvives ⟨.inl ⟨0, rfl⟩, trivial⟩
  cases hs'
  exact absurd hsame.activeMech (by decide)

end Hsm

end VirtualHsm
