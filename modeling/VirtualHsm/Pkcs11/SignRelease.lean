import VirtualHsm.Pkcs11.Api
import VirtualHsm.SignatureStore.RowHistory

/-!
# Signatures that leave the module

`C_Sign` and `C_SignFinal` copy the signature to the caller's buffer first and hand it to the
dispatcher afterwards, which stores it with its event in one transaction. A transaction that fails
changes the code of the call, but the signature is in the buffer already. A call that only asks
for the length goes the same way, and its signature is stored although nobody received it.
-/

namespace VirtualHsm

/-- One row with this signature and one event for the row were added. -/
def Db.Recorded (db : Db) (sig : Bytes) (db' : Db) : Prop :=
  ∃ r event, db.records.insert r = some db'.records ∧ db.outbox.insert event = some db'.outbox ∧
    r.signatureB64 = base64Encode sig ∧ event.aggregateId = r.id

theorem Db.Recorded.records_ne {db db' : Db} {sig : Bytes} (h : db.Recorded sig db') :
    db'.records ≠ db.records := by
  obtain ⟨r, event, hinsert, -⟩ := h
  intro heq
  have hrows := (CS.KeyedTable.insert_eq_some hinsert).2
  rw [heq] at hrows
  exact List.cons_ne_nil _ _ (List.append_right_eq_self.mp hrows.symm)

/-! ### The dispatcher -/

/-- The signature dispatcher, with what it draws for one signature. -/
structure Dispatcher where
  mac : Hmac
  key : Bytes
  worker : Bool
  /-- The post-quantum signature, if there is a key for it. -/
  companion : SignatureDispatchInput → Option Companion
  id : String
  outboxId : String
  nowTicks : Int

namespace Dispatcher

variable (d : Dispatcher)

/-- `SignatureDispatcher::dispatch`: a degenerate signature does not come to `v_dispatch`. -/
def dispatch (input : SignatureDispatchInput) (db : Db) : Bool × Option SignatureRecord × Db :=
  if input.signResult.signature = [] ∨ input.keyFingerprint = "" ∨ input.mechanism = "" then
    (false, none, db)
  else
    SignatureDispatcher.dispatch d.mac d.key d.worker d.id d.outboxId d.nowTicks
      (d.companion input) input db

/-- A signature that is refused leaves the database as it is; one that is stored is there with its
event. -/
theorem dispatch_cases (d : Dispatcher) (input : SignatureDispatchInput) (db : Db) :
    ((d.dispatch input db).1 = false ∧ (d.dispatch input db).2.2 = db) ∨
      (d.dispatch input db).1 = true ∧ input.signResult.signature ≠ [] ∧
        db.Recorded input.signResult.signature (d.dispatch input db).2.2 := by
  unfold dispatch
  by_cases hdegenerate :
      input.signResult.signature = [] ∨ input.keyFingerprint = "" ∨ input.mechanism = ""
  · rw [if_pos hdegenerate]
    exact .inl ⟨rfl, rfl⟩
  · rw [if_neg hdegenerate]
    obtain hfalse | ⟨records, outbox, hrecords, houtbox, htrue⟩ :=
      SignatureDispatcher.dispatch_cases d.mac d.key d.worker d.id d.outboxId d.nowTicks
        (d.companion input) input db
    · rw [hfalse]
      exact .inl ⟨rfl, rfl⟩
    · rw [htrue]
      exact .inr ⟨rfl, fun hnil => hdegenerate (.inl hnil), _, _, hrecords, houtbox, rfl, rfl⟩

end Dispatcher

/-! ### The calls that sign -/

/-- A call that ends a signature. -/
inductive SignCall
  | sign (data : CkBuf) (out : Option CkBuf)
  | signFinal (out : Option CkBuf)
  deriving DecidableEq, Repr

namespace SignCall

def toCryptoCall : SignCall → CryptoCall
  | sign data out => .sign data out
  | signFinal out => .signFinal out

/-- The buffer of the caller. -/
def out : SignCall → Option CkBuf
  | sign _ out => out
  | signFinal out => out

/-- The caller has given a buffer, and does not only ask for the length. -/
def HasBuffer (call : SignCall) : Prop := ∃ bytes, call.out = some (.data bytes)

/-- The session and the data that are signed, unless the call is refused. -/
def signed (call : SignCall) (hsm : Hsm) (session : CkUlong) : Except CkRv (Session × Bytes) := do
  let s ← hsm.opSession session
  match call with
  | sign data _ =>
    refuseIf data.missing .argumentsBad
    return (s, data.bytes)
  | signFinal _ => return (s, s.opBuf)

end SignCall

namespace Hsm

variable (be : Backend) (env : Env) (hsm : Hsm)

/-- What the end of a signature hands to the dispatcher, if it comes to that. -/
def dispatchedEnd (s : Session) (data : Bytes) (out : Option CkBuf) :
    Option SignatureDispatchInput :=
  match s.doSign be env data with
  | .error _ => none
  | .ok sig =>
    -- A length query is answered with `CKR_OK` too.
    if (finishOut sig out).rv = .ok then
      (s.opObject.bind (buildKeyFromAttrs be)).map fun k => hsm.dispatchInput be env s k data sig
    else none

end Hsm

namespace SignCall

variable (call : SignCall) (be : Backend) (env : Env) (hsm : Hsm) (session : CkUlong)
  (d : Dispatcher) (db : Db)

/-- What the call hands to the dispatcher. -/
def dispatched : Option SignatureDispatchInput :=
  (call.signed hsm session).toOption.bind fun p => hsm.dispatchedEnd be env p.1 p.2 call.out

/-- The answer of the call, with the dispatcher configured. -/
def answer : Answer :=
  (hsm.api be (.onSession { env with dispatch := some fun input => (d.dispatch input db).1 } session
    (.crypto call.toCryptoCall))).1

/-- The database after the call. -/
def after : Db :=
  match call.dispatched be env hsm session with
  | some input => (d.dispatch input db).2.2
  | none => db

end SignCall

/-- Signature bytes went out exactly with their row, and no bytes with an error. A call that only
asks for the length, like any other without bytes, adds nothing. -/
structure Accounted (a : Answer) (db db' : Db) : Prop where
  recorded : a.out ≠ [] → db.Recorded a.out db'
  untouched : a.out = [] → db'.records = db.records ∧ db'.outbox = db.outbox
  refused : a.rv ≠ .ok → a.out = []

/-! ### What a call does -/

/-- What `finish_output` hands out: nothing with a refusal or without a buffer, and otherwise the
whole output. -/
theorem finishOut_cases (sig : Bytes) (out : Option CkBuf) :
    ((finishOut sig out).rv ≠ .ok ∧ (finishOut sig out).out = []) ∨
      (finishOut sig out).rv = .ok ∧
        ((∃ n, out = some (.null n)) ∧ (finishOut sig out).out = [] ∨
          (∃ bytes, out = some (.data bytes)) ∧ (finishOut sig out).out = sig) := by
  match out with
  | none => exact .inl ⟨CkRv.noConfusion, rfl⟩
  | some (.null n) => exact .inr ⟨rfl, .inl ⟨⟨n, rfl⟩, rfl⟩⟩
  | some (.data bytes) =>
    simp only [finishOut, finishOutput]
    split_ifs with hsmall
    · exact .inl ⟨CkRv.noConfusion, rfl⟩
    · exact .inr ⟨rfl, .inr ⟨⟨bytes, rfl⟩, rfl⟩⟩

theorem Session.exists_key_of_doSign {be : Backend} {env : Env} {s : Session} {data sig : Bytes}
    (h : s.doSign be env data = .ok sig) :
    ∃ k, s.opObject.bind (buildKeyFromAttrs be) = some k := by
  obtain ⟨-, o, ho, -, h⟩ := by
    simpa only [doSign, checkKeyState, refuseIf_bind_eq_ok, orRefuse_bind_eq_ok] using h
  obtain ⟨-, -, h⟩ := bind_eq_ok.mp h
  obtain ⟨k, hk, -⟩ := orRefuse_bind_eq_ok.mp h
  exact ⟨k, by rw [ho, Option.bind_some, hk]⟩

/-- All that a call can do: it hands nothing to the dispatcher and no bytes to the caller, or one
signature to the dispatcher, whose answer decides the code, and the same to a caller with a
buffer. -/
inductive SignOutcome (d : Dispatcher) (db : Db) (call : SignCall) :
    Option SignatureDispatchInput → Answer → Prop
  | nothing {a : Answer} (hout : a.out = []) : SignOutcome d db call none a
  | query {input : SignatureDispatchInput} {a : Answer} (hbuf : ¬ call.HasBuffer)
      (hrv : a.rv = if (d.dispatch input db).1 then .ok else .deviceError) (hout : a.out = []) :
      SignOutcome d db call (some input) a
  | release {input : SignatureDispatchInput} {a : Answer} (hbuf : call.HasBuffer)
      (hrv : a.rv = if (d.dispatch input db).1 then .ok else .deviceError)
      (hout : a.out = input.signResult.signature) : SignOutcome d db call (some input) a

namespace SignCall

variable {call : SignCall} {be : Backend} {env : Env} {hsm : Hsm} {session : CkUlong}
  {d : Dispatcher} {db : Db}

theorem cryptoCall_eq (call : SignCall) (hsm : Hsm) :
    hsm.cryptoCall be env session call.toCryptoCall =
      (call.signed hsm session).map fun p => hsm.signEnd be env p.1 p.2 call.out := by
  cases call with
  | sign data out =>
    simp only [toCryptoCall, Hsm.cryptoCall, Hsm.cSign, signed, SignCall.out]
    cases hsm.opSession session with
    | error rv => rfl
    | ok s =>
      by_cases hmissing : data.missing
      · simp [refuseIf, hmissing, bind, Except.bind, Except.map]
      · simp [refuseIf, hmissing, bind, Except.bind, Except.map, pure, Except.pure]
  | signFinal out =>
    simp only [toCryptoCall, Hsm.cryptoCall, Hsm.cSignFinal, signed, SignCall.out]
    cases hsm.opSession session with
    | error rv => rfl
    | ok s => rfl

theorem outcome_signEnd (s : Session) (data : Bytes) (hsm : Hsm) :
    SignOutcome d db call (hsm.dispatchedEnd be env s data call.out)
      (hsm.signEnd be { env with dispatch := some fun input => (d.dispatch input db).1 } s data
        call.out).answer := by
  have hsign : s.doSign be { env with dispatch := some fun input => (d.dispatch input db).1 } data =
      s.doSign be env data := rfl
  unfold Hsm.signEnd Hsm.dispatchedEnd
  rw [hsign]
  cases hsig : s.doSign be env data with
  | error rv => exact .nothing rfl
  | ok sig =>
    dsimp only
    obtain ⟨hok, hout⟩ | ⟨hok, hout⟩ := finishOut_cases sig call.out
    · rw [if_neg hok, if_neg hok]
      exact .nothing hout
    · obtain ⟨k, hk⟩ := Session.exists_key_of_doSign hsig
      rw [if_pos hok, if_pos hok, hk, Option.map_some]
      -- The dispatcher is asked about the very input that is named.
      have hrv : hsm.dispatchSignResult be
          { env with dispatch := some fun input => (d.dispatch input db).1 } s data sig =
          if (d.dispatch (hsm.dispatchInput be env s k data sig) db).1 then .ok
          else .deviceError := by
        unfold Hsm.dispatchSignResult
        rw [hk]
        rfl
      obtain ⟨⟨n, hnull⟩, hnil⟩ | ⟨hbuf, hsig⟩ := hout
      · refine .query ?_ hrv hnil
        rintro ⟨bytes, hbuf⟩
        cases hnull.symm.trans hbuf
      · exact .release hbuf hrv hsig

theorem outcome (call : SignCall) (be : Backend) (env : Env) (hsm : Hsm) (session : CkUlong)
    (d : Dispatcher) (db : Db) :
    SignOutcome d db call (call.dispatched be env hsm session)
      (call.answer be env hsm session d db) := by
  unfold answer dispatched
  rw [Hsm.api, Hsm.sessionCall, cryptoCall_eq]
  cases call.signed hsm session with
  | error rv => exact .nothing rfl
  | ok p =>
    rw [Except.map, Hsm.finish_answer]
    exact outcome_signEnd p.1 p.2 hsm

/-! ### Stored and released signatures -/

/-- A signature that leaves the module with `CKR_OK` was stored by the call. -/
theorem recorded_of_released (hok : (call.answer be env hsm session d db).rv = .ok)
    (hout : (call.answer be env hsm session d db).out ≠ []) :
    db.Recorded (call.answer be env hsm session d db).out
      (call.after be env hsm session d db) := by
  have houtcome := call.outcome be env hsm session d db
  unfold after
  generalize call.dispatched be env hsm session = x at houtcome ⊢
  generalize call.answer be env hsm session d db = a at houtcome hok hout ⊢
  cases houtcome with
  | nothing hnil | query _ _ hnil => exact absurd hnil hout
  | @release input _ _ hrv hsig =>
    obtain ⟨hfalse, -⟩ | ⟨-, -, hrecorded⟩ := d.dispatch_cases input db
    · rw [hrv, hfalse] at hok
      cases hok
    · rw [hsig]
      exact hrecorded

/-- The state in which a session is about to sign with an RSA key. -/
def aboutToSign : Hsm :=
  CS.run (Hsm.api .toy) {}
    [.initModule (some ⟨fun i => if i = 0 then some none else none, none, false⟩) false,
     .openSession 0 ckfSerialSession,
     .onSession {} 1 (.object (.createObject
       [⟨ckaClass, .data (ulongBytes ckoPrivateKey)⟩, ⟨ckaVhsmRsaPriv, .data [1]⟩] true)),
     .onSession {} 1 (.crypto (.signInit (some ⟨ckmRsaPkcs, .absent⟩) 1))]

/-- A dispatcher without a key for hashes and without a ledger. -/
def plainDispatcher : Dispatcher where
  mac := SignatureRepository.checksum
  key := []
  worker := false
  companion _ := none
  id := "r"
  outboxId := "e"
  nowTicks := 0

def emptyDb : Db where
  records := .empty

theorem recorded_aboutToSign : let call : SignCall := .sign (.data [1]) (some (.data [0]))
    emptyDb.Recorded (call.answer .toy {} aboutToSign 1 plainDispatcher emptyDb).out
      (call.after .toy {} aboutToSign 1 plainDispatcher emptyDb) :=
  recorded_of_released (by decide +kernel) (by decide +kernel)

/-- An empty database whose transactions fail. -/
def failingDb : Db where
  records := .empty
  fails q := q = .insertSignature

end SignCall

end VirtualHsm
