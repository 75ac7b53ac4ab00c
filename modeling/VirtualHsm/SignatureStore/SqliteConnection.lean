import VirtualHsm.CS.Sql

/-!
# The connection to the database

The connection takes its mutex for every query and for the whole of a transaction. A statement of
a transaction goes to the database without the mutex. The mutex is not recursive: a query inside
a transaction waits for the thread that makes it.
-/

namespace VirtualHsm

open CS.Sql (Database Stmt)

/-- The kinds of errors that the schema code throws; the messages of the database are not spelled
out. -/
inductive DbError
  | schemaError (message : String)
  | ioError (e : CS.Sql.Error)
  deriving DecidableEq, Repr

/-- What a mutex does for the thread that holds it already. -/
inductive MutexKind
  | plain
  | recursive
  deriving DecidableEq, Repr

/-- Whether a thread that holds the mutex or not gets it. -/
def MutexKind.admits : MutexKind → Bool → Bool
  | plain, held => !held
  | recursive, _ => true

inductive Outcome (α : Type)
  | returned (a : α)
  | threw (e : DbError)
  /-- It waits for a mutex that is never released. -/
  | blocked
  deriving DecidableEq, Repr

namespace Outcome

def bind {α β : Type} (f : α → Outcome β) : Outcome α → Outcome β
  | returned a => f a
  | threw e => threw e
  | blocked => blocked

def ofExcept {α : Type} : Except CS.Sql.Error α → Outcome α
  | .ok a => returned a
  | .error e => threw (.ioError e)

end Outcome

/-- A computation with a connection, by the kind of its mutex and whether the thread holds it. -/
def ConnM (α : Type) : Type := MutexKind → Bool → Database → Outcome α × Database

namespace ConnM

variable {α β : Type}

instance : Monad ConnM where
  pure a := fun _ _ db => (.returned a, db)
  bind x f := fun kind held db =>
    match x kind held db with
    | (.returned a, db') => f a kind held db'
    | (.threw e, db') => (.threw e, db')
    | (.blocked, db') => (.blocked, db')

def fail (e : DbError) : ConnM α := fun _ _ db => (.threw e, db)

variable {x : ConnM α} {f : α → ConnM β} {kind : MutexKind} {held : Bool} {db db' : Database}

theorem bind_of_returned {a : α} (h : x kind held db = (.returned a, db')) :
    (x >>= f) kind held db = f a kind held db' := by
  simp only [bind, h]

theorem bind_of_threw {e : DbError} (h : x kind held db = (.threw e, db')) :
    (x >>= f) kind held db = (.threw e, db') := by
  simp only [bind, h]

theorem bind_of_blocked (h : x kind held db = (.blocked, db')) :
    (x >>= f) kind held db = (.blocked, db') := by
  simp only [bind, h]

/-- Outside a transaction, the computation only looks at the database. -/
def Reads (x : ConnM α) : Prop := ∃ q : Database → Outcome α, ∀ kind db, x kind false db = (q db, db)

theorem reads_pure (a : α) : Reads (pure a : ConnM α) := ⟨fun _ => .returned a, fun _ _ => rfl⟩

theorem Reads.bind (hx : Reads x) (hf : ∀ a, Reads (f a)) : Reads (x >>= f) := by
  obtain ⟨qx, hx⟩ := hx
  choose qf hf using hf
  refine ⟨fun db => (qx db).bind (qf · db), fun kind db => ?_⟩
  have hxdb := hx kind db
  dsimp only
  generalize qx db = out at hxdb ⊢
  cases out with
  | returned a => exact (bind_of_returned hxdb).trans (hf a kind db)
  | threw e => exact bind_of_threw hxdb
  | blocked => exact bind_of_blocked hxdb

end ConnM

/-! ### Queries, transactions and statements -/

namespace SqliteConnection

variable {α : Type}

def query (q : Database → Except CS.Sql.Error α) : ConnM α := fun kind held db =>
  if kind.admits held then (.ofExcept (q db), db) else (.blocked, db)

/-- `with_transaction`: what the body has done counts when it returns. -/
def withTransaction (body : ConnM Unit) : ConnM Unit := fun kind held db =>
  if kind.admits held then
    -- A transaction cannot begin within another one.
    if held then (.threw (.ioError .withinTransaction), db)
    else
      match body kind true db with
      | (.returned _, db') => (.returned (), db')
      | (.threw e, _) => (.threw e, db)
      | (.blocked, _) => (.blocked, db)
  else (.blocked, db)

variable {body : ConnM Unit} {kind : MutexKind} {db db' : Database}

theorem query_of_held (q : Database → Except CS.Sql.Error α) (db : Database) :
    query q .plain true db = (.blocked, db) := rfl

theorem reads_query (q : Database → Except CS.Sql.Error α) : ConnM.Reads (query q) := by
  refine ⟨fun db => .ofExcept (q db), fun kind db => if_pos ?_⟩
  cases kind <;> rfl

theorem withTransaction_of_returned (h : body kind true db = (.returned (), db')) :
    withTransaction body kind false db = (.returned (), db') := by
  cases kind <;> simp [withTransaction, MutexKind.admits, h]

theorem withTransaction_of_blocked (h : body kind true db = (.blocked, db')) :
    withTransaction body kind false db = (.blocked, db) := by
  cases kind <;> simp [withTransaction, MutexKind.admits, h]

theorem withTransaction_unchanged {held : Bool}
    (h : (withTransaction body kind held db).1 ≠ .returned ()) :
    (withTransaction body kind held db).2 = db := by
  unfold withTransaction at h ⊢
  split_ifs at h ⊢
  · rfl
  · split at h
    · exact absurd rfl h
    · rfl
    · rfl
  · rfl

end SqliteConnection

namespace SqliteTransaction

/-- `exec` of a transaction. -/
def exec (s : Stmt) : ConnM Unit := fun _ _ db =>
  match db.exec s with
  | .ok db' => (.returned (), db')
  | .error e => (.threw (.ioError e), db)

/-- Statements one after the other. -/
def execAll : List Stmt → ConnM Unit
  | [] => pure ()
  | s :: ss => do
    exec s
    execAll ss

/-- A text with several statements: only the first one is prepared. -/
def execText : List Stmt → ConnM Unit
  | [] => pure ()
  | s :: _ => exec s

end SqliteTransaction

end VirtualHsm
