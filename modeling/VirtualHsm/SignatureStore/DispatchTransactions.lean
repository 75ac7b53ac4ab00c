import VirtualHsm.CS.Run
import VirtualHsm.CS.Transaction
import VirtualHsm.SignatureStore.VerificationService

/-!
# Dispatches with failing database calls

A dispatch inserts the signature row and its outbox event in one transaction. Every database call
on the way may fail, the `ROLLBACK` after another failure included. Then the transaction stays
open, no later one can begin, and so nothing that it holds is ever committed.
-/

namespace VirtualHsm

/-- The database calls of a dispatch that fail. For an insert, the flag says whether the database
has rolled the transaction back by itself. -/
structure DispatchFaults where
  beginFails : Bool := false
  signature : Option Bool := none
  outbox : Option Bool := none
  commitFails : Bool := false
  rollbackFails : Bool := false
  deriving DecidableEq, Repr

/-- Some call before the `ROLLBACK` fails. -/
def DispatchFaults.any (faults : DispatchFaults) : Bool :=
  faults.beginFails || faults.signature.isSome || faults.outbox.isSome || faults.commitFails

theorem DispatchFaults.any_eq_false {faults : DispatchFaults} :
    faults.any = false ↔ faults.beginFails = false ∧ faults.signature = none ∧
      faults.outbox = none ∧ faults.commitFails = false := by
  simp [any, and_assoc]

/-- A dispatch, with the identifiers that it draws. -/
structure DispatchCall where
  id : String
  outboxId : String
  nowTicks : Int
  companion : Option Companion
  input : SignatureDispatchInput
  /-- The key of the row hashes. -/
  key : Bytes
  faults : DispatchFaults := {}

/-- `with_transaction`: a `BEGIN` that fails is not followed by a `ROLLBACK`, every other failure
is, and whether that works is not looked at. -/
def SqliteConnection.withTransactionOn (faults : DispatchFaults)
    (func : CS.Connection Db → Bool × CS.Connection Db) (c : CS.Connection Db) :
    Bool × CS.Connection Db :=
  match c.begin faults.beginFails with
  | none => (false, c)
  | some tx =>
    let ran := func tx
    let ended := if ran.1 then ran.2.commit faults.commitFails else (false, ran.2)
    if ended.1 then (true, ended.2) else (false, ended.2.rollback faults.rollbackFails)

namespace SignatureDispatcher

def insertRecord (r : SignatureRow) (db : Db) : Option Db :=
  (db.records.insert r).map fun records => { db with records }

def insertOutbox (event : OutboxEvent) (db : Db) : Option Db :=
  (db.outbox.insert event).map fun outbox => { db with outbox }

/-- The signature row of a dispatch, with its hash. -/
def signatureRow (mac : Hmac) (x : DispatchCall) : SignatureRow :=
  (row x.id x.companion x.input).withHmac
    ((RowIntegrity.computeHmac mac x.key (givenColumns (row x.id x.companion x.input))).getD "")

/-- Its outbox event. -/
def createdEvent (x : DispatchCall) : OutboxEvent := outboxEvent x.outboxId x.id x.nowTicks x.input

/-- The two inserts within the transaction; an exception of the first one skips the second. -/
def insertBoth (mac : Hmac) (x : DispatchCall) (tx : CS.Connection Db) : Bool × CS.Connection Db :=
  let first := tx.exec (insertRecord (signatureRow mac x)) x.faults.signature
  if first.1 then first.2.exec (insertOutbox (createdEvent x)) x.faults.outbox else first

/-- `v_dispatch` on a connection. -/
def dispatchOn (mac : Hmac) (c : CS.Connection Db) (x : DispatchCall) : Bool × CS.Connection Db :=
  SqliteConnection.withTransactionOn x.faults (insertBoth mac x) c

variable {mac : Hmac} {c tx : CS.Connection Db} {x : DispatchCall} {db : Db}

/-! ### One dispatch -/

/-- Both rows are in the state of the transaction, or an insert has thrown. -/
theorem insertBoth_cases (mac : Hmac) (x : DispatchCall) (h : tx.pending = some db) :
    (∃ records outbox, x.faults.signature = none ∧ x.faults.outbox = none ∧
      db.records.insert (signatureRow mac x) = some records ∧
      db.outbox.insert (createdEvent x) = some outbox ∧
      insertBoth mac x tx = (true, { tx with pending := some { db with records, outbox } })) ∨
    ((insertBoth mac x tx).1 = false ∧ (insertBoth mac x tx).2.committed = tx.committed ∧
      (x.faults.signature = none → x.faults.outbox = none →
        db.records.insert (signatureRow mac x) = none ∨
          db.outbox.insert (createdEvent x) = none)) := by
  unfold insertBoth
  rcases CS.Connection.exec_of_pending h (insertRecord (signatureRow mac x)) x.faults.signature with
    ⟨db₁, hfault₁, hinsert₁, hexec₁⟩ | ⟨hthrew, hkept, hnone⟩
  · obtain ⟨records, hrecords, rfl⟩ := Option.map_eq_some_iff.mp hinsert₁
    dsimp only
    rw [hexec₁]
    dsimp only
    rw [if_pos rfl]
    -- The second insert sees the first one, which has not touched its table.
    have hpending : ({ tx with pending := some { db with records } } : CS.Connection Db).pending =
        some { db with records } := rfl
    rcases CS.Connection.exec_of_pending hpending (insertOutbox (createdEvent x))
        x.faults.outbox with
      ⟨db₂, hfault₂, hinsert₂, hexec₂⟩ | ⟨hthrew, hkept, hnone⟩
    · obtain ⟨outbox, houtbox, rfl⟩ := Option.map_eq_some_iff.mp hinsert₂
      exact .inl ⟨records, outbox, hfault₁, hfault₂, hrecords, houtbox, hexec₂⟩
    · exact .inr ⟨hthrew, hkept, fun _ hfault => .inr (Option.map_eq_none_iff.mp (hnone hfault))⟩
  · dsimp only
    rw [hthrew, if_neg Bool.false_ne_true]
    exact .inr ⟨hthrew, hkept, fun hfault _ => .inl (Option.map_eq_none_iff.mp (hnone hfault))⟩

/-- A dispatch has committed both rows, and then no transaction is open, or none. -/
theorem dispatchOn_cases (mac : Hmac) (c : CS.Connection Db) (x : DispatchCall) :
    (∃ records outbox, x.faults.any = false ∧
      c.committed.records.insert (signatureRow mac x) = some records ∧
      c.committed.outbox.insert (createdEvent x) = some outbox ∧
      dispatchOn mac c x = (true, ⟨{ c.committed with records, outbox }, none⟩)) ∨
    ((dispatchOn mac c x).1 = false ∧ (dispatchOn mac c x).2.committed = c.committed ∧
      (c.pending = none → x.faults.any = false →
        c.committed.records.insert (signatureRow mac x) = none ∨
          c.committed.outbox.insert (createdEvent x) = none)) := by
  rw [DispatchFaults.any_eq_false]
  unfold dispatchOn SqliteConnection.withTransactionOn
  cases hbegin : c.begin x.faults.beginFails with
  | none =>
    -- Without faults only a transaction that is still open keeps another from beginning.
    refine .inr ⟨rfl, rfl, fun hclosed hfaults => ?_⟩
    rw [hfaults.1, CS.Connection.begin_of_closed hclosed] at hbegin
    cases hbegin
  | some tx =>
    obtain ⟨-, hbegun, rfl⟩ := CS.Connection.begin_eq_some hbegin
    have hpending : (⟨c.committed, some c.committed⟩ : CS.Connection Db).pending =
        some c.committed := rfl
    dsimp only
    rcases insertBoth_cases mac x hpending with
      ⟨records, outbox, hsignature, houtbox', hrecords, houtbox, hran⟩ | ⟨hthrew, hkept, hnone⟩
    · rw [hran]
      dsimp only
      rw [if_pos rfl, CS.Connection.commit_of_pending rfl]
      cases hcommit : x.faults.commitFails with
      | true =>
        exact .inr ⟨rfl, CS.Connection.committed_rollback,
          fun _ hfaults => nomatch hfaults.2.2.2⟩
      | false =>
        exact .inl ⟨records, outbox, ⟨hbegun, hsignature, houtbox', rfl⟩, hrecords, houtbox,
          rfl⟩
    · -- Whether the `ROLLBACK` works or not, it leaves what is committed.
      rw [hthrew]
      exact .inr ⟨rfl, CS.Connection.committed_rollback.trans hkept,
        fun _ hfaults => hnone hfaults.2.1 hfaults.2.2.1⟩

/-! ### Any number of dispatches -/

/-- The dispatches of a log that returned `true`. -/
def accepted (log : List (DispatchCall × Bool)) : List DispatchCall :=
  (log.filter fun y => y.2).map fun y => y.1

theorem accepted_append (log log' : List (DispatchCall × Bool)) :
    accepted (log ++ log') = accepted log ++ accepted log' := by
  simp [accepted]

/-- The second state has the rows of these dispatches committed in addition, and no others. -/
structure Adds (mac : Hmac) (xs : List DispatchCall) (c c' : CS.Connection Db) : Prop where
  records : c'.committed.records.rows = c.committed.records.rows ++ xs.map (signatureRow mac)
  outbox : c'.committed.outbox.rows = c.committed.outbox.rows ++ xs.map createdEvent

theorem Adds.trans {xs ys : List DispatchCall} {c c' c'' : CS.Connection Db} (h : Adds mac xs c c')
    (h' : Adds mac ys c' c'') : Adds mac (xs ++ ys) c c'' := by
  constructor
  · rw [h'.records, h.records, List.map_append, List.append_assoc]
  · rw [h'.outbox, h.outbox, List.map_append, List.append_assoc]

/-- A dispatch adds its rows if it returns `true`, and nothing otherwise. -/
theorem adds_dispatchOn (mac : Hmac) (c : CS.Connection Db) (x : DispatchCall) :
    Adds mac (accepted [(x, (dispatchOn mac c x).1)]) c (dispatchOn mac c x).2 := by
  rcases dispatchOn_cases mac c x with
    ⟨records, outbox, -, hrecords, houtbox, heq⟩ | ⟨hfalse, hkept, -⟩
  · rw [heq]
    exact ⟨(CS.KeyedTable.insert_eq_some hrecords).2, (CS.KeyedTable.insert_eq_some houtbox).2⟩
  · rw [hfalse]
    refine ⟨?_, ?_⟩
    all_goals
      rw [hkept]
      exact (List.append_nil _).symm

theorem adds_run (mac : Hmac) (c : CS.Connection Db) (calls : List DispatchCall) :
    Adds mac (accepted (CS.history (dispatchOn mac) c calls)) c
      (CS.run (dispatchOn mac) c calls) := by
  induction calls generalizing c with
  | nil => exact ⟨(List.append_nil _).symm, (List.append_nil _).symm⟩
  | cons x calls ih =>
    rw [CS.history, ← List.singleton_append, accepted_append]
    exact (adds_dispatchOn mac c x).trans (ih _)

/-- Signature row and outbox event are committed together: by a dispatch that returns `true`, to
stay, and never by one that returns `false`. -/
structure CommitsTogether (mac : Hmac) (c : CS.Connection Db) (calls : List DispatchCall) :
    Prop where
  /-- The two rows are about the same signature. -/
  aggregateId : ∀ x ∈ calls, (createdEvent x).aggregateId = (signatureRow mac x).id
  /-- A dispatch returns `true` exactly when it has committed both. -/
  answer_iff : ∀ before x after, calls = before ++ x :: after →
    ((dispatchOn mac (CS.run (dispatchOn mac) c before) x).1 = true ↔
      Adds mac [x] (CS.run (dispatchOn mac) c before) (CS.run (dispatchOn mac) c (before ++ [x])))
  /-- Then they are there in the end. -/
  visible : ∀ before x after, calls = before ++ x :: after →
    (dispatchOn mac (CS.run (dispatchOn mac) c before) x).1 = true →
    signatureRow mac x ∈ (CS.run (dispatchOn mac) c calls).committed.records.rows ∧
      createdEvent x ∈ (CS.run (dispatchOn mac) c calls).committed.outbox.rows
  /-- Otherwise only the rows of other dispatches are there in the end. -/
  invisible : ∀ before x after, calls = before ++ x :: after →
    (dispatchOn mac (CS.run (dispatchOn mac) c before) x).1 = false →
    Adds mac (accepted (CS.history (dispatchOn mac) c before) ++
      accepted (CS.history (dispatchOn mac) (CS.run (dispatchOn mac) c (before ++ [x])) after))
      c (CS.run (dispatchOn mac) c calls)

theorem not_adds_of_false (h : (dispatchOn mac c x).1 = false) :
    ¬ Adds mac [x] c (dispatchOn mac c x).2 := by
  intro hadds
  have hnone := adds_dispatchOn mac c x
  rw [h] at hnone
  have hlength := congrArg List.length (hadds.records.symm.trans hnone.records)
  simp [accepted] at hlength

/-- The log of a run, cut at one of its dispatches. -/
theorem accepted_split (mac : Hmac) (c : CS.Connection Db) (before after : List DispatchCall)
    (x : DispatchCall) :
    accepted (CS.history (dispatchOn mac) c (before ++ x :: after)) =
      accepted (CS.history (dispatchOn mac) c before) ++
        accepted [(x, (dispatchOn mac (CS.run (dispatchOn mac) c before) x).1)] ++
        accepted
          (CS.history (dispatchOn mac) (CS.run (dispatchOn mac) c (before ++ [x])) after) := by
  rw [List.append_cons, CS.history_append, accepted_append, CS.history_concat, accepted_append]

/-- The two rows of a dispatch are committed together, whatever database calls fail. -/
theorem commitsTogether (mac : Hmac) (c : CS.Connection Db) (calls : List DispatchCall) :
    CommitsTogether mac c calls := by
  refine ⟨fun x _ => rfl, ?_, ?_, ?_⟩
  · rintro before x after rfl
    rw [CS.run_append]
    change _ ↔ Adds mac [x] _ (dispatchOn mac (CS.run (dispatchOn mac) c before) x).2
    constructor
    · intro htrue
      have hadds := adds_dispatchOn mac (CS.run (dispatchOn mac) c before) x
      rw [htrue] at hadds
      exact hadds
    · intro hadds
      by_contra hfalse
      exact not_adds_of_false (Bool.eq_false_of_not_eq_true hfalse) hadds
  · rintro before x after rfl htrue
    have hadds := adds_run mac c (before ++ x :: after)
    rw [accepted_split, htrue] at hadds
    rw [hadds.records, hadds.outbox]
    have hmem : x ∈ accepted (CS.history (dispatchOn mac) c before) ++ accepted [(x, true)] ++
        accepted (CS.history (dispatchOn mac) (CS.run (dispatchOn mac) c (before ++ [x])) after) :=
      List.mem_append_left _ (List.mem_append_right _ List.mem_cons_self)
    exact ⟨List.mem_append_right _ (List.mem_map_of_mem hmem),
      List.mem_append_right _ (List.mem_map_of_mem hmem)⟩
  · rintro before x after rfl hfalse
    have hadds := adds_run mac c (before ++ x :: after)
    rw [accepted_split, hfalse] at hadds
    exact List.append_nil (accepted (CS.history (dispatchOn mac) c before)) ▸ hadds

/-! ### Without an open transaction -/

/-- What `dispatch` answers and leaves is settled by its transaction. -/
theorem dispatch_eq_store (mac : Hmac) (worker : Bool) (x : DispatchCall) (db : Db) :
    let out := dispatch mac x.key worker x.id x.outboxId x.nowTicks x.companion x.input db
    out.1 = (store (signatureRow mac x) (createdEvent x) db).isSome ∧
      out.2.2 = (store (signatureRow mac x) (createdEvent x) db).getD db := by
  unfold dispatch
  dsimp only
  split
  all_goals
    next hstore =>
      rw [show store (signatureRow mac x) (createdEvent x) db = _ from hstore]
      exact ⟨rfl, rfl⟩

/-- With no transaction open a dispatch is `dispatch` on what is committed. -/
theorem dispatchOn_eq_dispatch (hclosed : c.pending = none)
    (hfails : c.committed.fails .insertSignature = x.faults.any) (worker : Bool) :
    let out := dispatch mac x.key worker x.id x.outboxId x.nowTicks x.companion x.input c.committed
    (dispatchOn mac c x).1 = out.1 ∧ (dispatchOn mac c x).2.committed = out.2.2 := by
  intro out
  obtain ⟨hanswer, hdb⟩ := dispatch_eq_store mac worker x c.committed
  rcases dispatchOn_cases mac c x with
    ⟨records, outbox, hfaults, hrecords, houtbox, heq⟩ | ⟨hfalse, hkept, hnone⟩
  · have hstore : store (signatureRow mac x) (createdEvent x) c.committed =
        some { c.committed with records, outbox } :=
      store_eq_some_iff.mpr ⟨hfails.trans hfaults, records, outbox, hrecords, houtbox, rfl⟩
    rw [hstore] at hanswer hdb
    rw [heq]
    exact ⟨hanswer.symm, hdb.symm⟩
  · have hstore : store (signatureRow mac x) (createdEvent x) c.committed = none := by
      rw [Option.eq_none_iff_forall_ne_some]
      intro db' hsome
      obtain ⟨hfaults, records, outbox, hrecords, houtbox, -⟩ := store_eq_some_iff.mp hsome
      rcases hnone hclosed (hfails.symm.trans hfaults) with hrecords' | houtbox'
      · exact nomatch hrecords'.symm.trans hrecords
      · exact nomatch houtbox'.symm.trans houtbox
    rw [hstore] at hanswer hdb
    exact ⟨hfalse.trans hanswer.symm, hkept.trans hdb.symm⟩

theorem dispatchOn_empty : (dispatchOn .toy ⟨{ records := .empty }, none⟩ ⟨"r", "e", 0, none,
      ⟨⟨[], "", "", "", 0⟩, 0, 0, [], "", "", "", "", "", none, none⟩, [], {}⟩).1 = true :=
  (dispatchOn_eq_dispatch rfl rfl true).1

end SignatureDispatcher

end VirtualHsm
