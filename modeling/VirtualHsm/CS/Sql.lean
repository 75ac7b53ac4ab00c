import Mathlib.Logic.Function.Basic
import VirtualHsm.CS.KeyedTable

/-!
# A relational database

Tables with typed columns, and the statements that define, fill and change them. A statement
either gives a new database or fails, and a failed statement has no effect.

Values are texts, integers and `NULL`. The constraints are those of a column: that it is not
`NULL`, that it is a key, that it is one of some values, and that it refers to a column of another
table. References are enforced when a row is inserted and when a table is dropped.
-/

namespace CS.Sql

/-! ### Values and tables -/

inductive Value
  | null
  | int (n : Int)
  | text (s : String)
  deriving DecidableEq, Repr

/-- The type that a column prefers for its values. -/
inductive Affinity
  | integer
  | text
  deriving DecidableEq, Repr

/-- The integer that a text is, in decimal digits after an optional sign. -/
def readInteger (s : String) : Option Int :=
  match s.toList with
  | '-' :: cs => (digits cs).map fun n => -n
  | '+' :: cs => (digits cs).map fun n => n
  | cs => (digits cs).map fun n => n
where
  digits (cs : List Char) : Option Nat :=
    if cs ≠ [] ∧ cs.all Char.isDigit then some (Nat.ofDigitChars 10 cs 0) else none

/-- A value as a column stores it: an integer column keeps a text that is not a number. -/
def Affinity.convert : Affinity → Value → Value
  | text, .int n => .text (toString n)
  | integer, .text s => (readInteger s).elim (.text s) .int
  | _, v => v

structure Column where
  name : String
  affinity : Affinity := .text
  notNull : Bool := false
  key : Bool := false
  /-- The values that a `CHECK … IN` admits. -/
  check : Option (List Value) := none
  /-- The table and the column that it refers to. -/
  references : Option (String × String) := none
  deriving DecidableEq, Repr

/-- A row gives each column its value; what it gives other names has no meaning. -/
abbrev Row := String → Value

structure Table where
  name : String
  columns : List Column
  rows : List Row := []

structure Index where
  name : String
  table : String
  deriving DecidableEq, Repr

structure Database where
  tables : KeyedTable Table.name := .empty
  indexes : List Index := []

/-- Whether the value meets the constraints of the column that concern it alone. -/
def Column.Admits (c : Column) (v : Value) : Prop :=
  (c.notNull = true → v ≠ .null) ∧ ∀ vs ∈ c.check, v = .null ∨ v ∈ vs

instance (c : Column) (v : Value) : Decidable (c.Admits v) := inferInstanceAs (Decidable (_ ∧ _))

namespace Table

variable (t : Table)

def HasColumn (c : String) : Prop := c ∈ t.columns.map Column.name

instance (c : String) : Decidable (t.HasColumn c) := inferInstanceAs (Decidable (_ ∈ _))

/-- A row with values for some columns. -/
def newRow (values : List (String × Value)) : Row := fun name =>
  match t.columns.find? (fun c => c.name = name), values.lookup name with
  | some c, some v => c.affinity.convert v
  | _, _ => .null

def addRow (r : Row) : Table := { t with rows := t.rows ++ [r] }

/-- A new column is `NULL` in the rows that are there. -/
def addColumn (c : Column) : Table :=
  { t with columns := t.columns ++ [c], rows := t.rows.map fun r => Function.update r c.name .null }

/-- Set a column in the rows with a value in another one. -/
def setWhere (column : String) (v : Value) (selector : String) (choice : Value) : Table :=
  { t with
    rows := t.rows.map fun r => if r selector = choice then Function.update r column v else r }

/-- The columns that refer to one table now refer to another. -/
def renameReferences (old new : String) : Table :=
  { t with columns := t.columns.map fun c =>
      { c with references := c.references.map fun p => (if p.1 = old then new else p.1, p.2) } }

theorem name_addRow (r : Row) : (t.addRow r).name = t.name := rfl

theorem name_addColumn (c : Column) : (t.addColumn c).name = t.name := rfl

theorem name_setWhere (column : String) (v : Value) (selector : String) (choice : Value) :
    (t.setWhere column v selector choice).name = t.name := rfl

theorem name_renameReferences (old new : String) : (t.renameReferences old new).name = t.name := rfl

end Table

/-! ### Statements -/

/-- An expression over a row. -/
inductive Expr
  | column (c : String)
  | literal (v : Value)
  | coalesce (c : String) (v : Value)
  /-- `CASE c WHEN … THEN … ELSE NULL END`. -/
  | mapping (c : String) (cases : List (Value × Value))
  deriving DecidableEq, Repr

namespace Expr

/-- The columns that the expression reads. -/
def reads : Expr → List String
  | column c => [c]
  | literal _ => []
  | coalesce c _ => [c]
  | mapping c _ => [c]

def eval (r : Row) : Expr → Value
  | column c => r c
  | literal v => v
  | coalesce c v => if r c = .null then v else r c
  -- `NULL` is equal to nothing, so it meets no case.
  | mapping c cases => if r c = .null then .null else (cases.lookup (r c)).getD .null

end Expr

inductive Stmt
  | createTable (ifNotExists : Bool) (name : String) (columns : List Column)
  /-- `CREATE INDEX IF NOT EXISTS`. -/
  | createIndex (name table column : String)
  | insertSelect (into : String) (values : List (String × Expr)) (source : String)
  | insertValues (into : String) (values : List (String × Value))
  /-- `UPDATE … SET column = value WHERE selector = choice`, for a column that is neither a key nor
  a reference. -/
  | update (table column : String) (value : Value) (selector : String) (choice : Value)
  | dropTable (name : String)
  | renameTable (old new : String)
  | addColumn (table : String) (column : Column)
  deriving DecidableEq, Repr

inductive Error
  | noSuchTable
  | noSuchColumn
  | tableExists
  | duplicateColumn
  | constraint
  | withinTransaction
  deriving DecidableEq, Repr

/-- Fail unless the condition holds. -/
def require (p : Prop) [Decidable p] (e : Error) : Except Error Unit :=
  if p then .ok () else .error e

namespace Database

variable (db : Database)

/-- The table with a name. -/
def table (name : String) : Except Error Table :=
  match db.tables.find name with
  | some t => .ok t
  | none => .error .noSuchTable

/-- The value of a reference is `NULL` or occurs in the column that it refers to. -/
def HasParent (v : Value) (p : String × String) : Prop :=
  v = .null ∨ ∃ t ∈ db.tables.find p.1, ∃ r ∈ t.rows, r p.2 = v

instance (v : Value) (p : String × String) : Decidable (db.HasParent v p) :=
  inferInstanceAs (Decidable (_ ∨ _))

/-- The constraints on a row that is to be inserted. -/
def Accepts (t : Table) (r : Row) : Prop :=
  ∀ c ∈ t.columns, c.Admits (r c.name) ∧
    (c.key = true → ∀ r' ∈ t.rows, r' c.name ≠ r c.name) ∧
    ∀ p ∈ c.references, db.HasParent (r c.name) p

instance (t : Table) (r : Row) : Decidable (db.Accepts t r) :=
  inferInstanceAs (Decidable (∀ _ ∈ _, _))

/-- A row of another table refers to a row of this one. -/
def Referenced (t : Table) : Prop :=
  ∃ t' ∈ db.tables.rows, t'.name ≠ t.name ∧ ∃ c ∈ t'.columns, ∃ p ∈ c.references, p.1 = t.name ∧
    ∃ r' ∈ t'.rows, r' c.name ≠ .null ∧ ∃ r ∈ t.rows, r p.2 = r' c.name

instance (t : Table) : Decidable (db.Referenced t) := inferInstanceAs (Decidable (∃ _ ∈ _, _))

/-- Change the table with a name. -/
def modify (name : String) (f : Table → Table) (hf : ∀ t, (f t).name = t.name) : Database :=
  { db with tables := db.tables.modify name f hf }

def insertRow (into : String) (values : List (String × Value)) : Except Error Database := do
  let t ← db.table into
  require (∀ p ∈ values, t.HasColumn p.1) .noSuchColumn
  require (db.Accepts t (t.newRow values)) .constraint
  return db.modify into (·.addRow (t.newRow values)) (·.name_addRow _)

/-- The values of an expression list on a row. -/
def evalAll (values : List (String × Expr)) (r : Row) : List (String × Value) :=
  values.map fun p => (p.1, p.2.eval r)

/-- The effect of a statement. -/
def exec : Stmt → Except Error Database
  | .createTable ifNotExists name columns =>
    match db.tables.insert { name, columns } with
    | some tables => .ok { db with tables }
    | none => if ifNotExists then .ok db else .error .tableExists
  | .createIndex name table column => do
    -- The table is looked up before the name of the index.
    let t ← db.table table
    if name ∈ db.indexes.map Index.name then return db
    else
      require (t.HasColumn column) .noSuchColumn
      return { db with indexes := db.indexes ++ [⟨name, table⟩] }
  | .insertSelect into values source => do
    let t ← db.table source
    require (∀ p ∈ values, ∀ c ∈ p.2.reads, t.HasColumn c) .noSuchColumn
    let target ← db.table into
    require (∀ p ∈ values, target.HasColumn p.1) .noSuchColumn
    t.rows.foldlM (fun db r => db.insertRow into (evalAll values r)) db
  | .insertValues into values => db.insertRow into values
  | .update name column value selector choice => do
    let t ← db.table name
    require (t.HasColumn selector) .noSuchColumn
    match t.columns.find? (fun c => c.name = column) with
    | none => .error .noSuchColumn
    | some c =>
      let v := c.affinity.convert value
      require (∀ r ∈ t.rows, r selector = choice → c.Admits v) .constraint
      return db.modify name (·.setWhere column v selector choice) (·.name_setWhere ..)
  | .dropTable name => do
    let t ← db.table name
    -- The rows are deleted first, which a reference to one of them forbids.
    require (¬ db.Referenced t) .constraint
    return { tables := db.tables.erase name
             indexes := db.indexes.filter fun i => i.table ≠ name }
  | .renameTable old new => do
    let t ← db.table old
    match (db.tables.erase old).insert { t with name := new } with
    | none => .error .tableExists
    | some tables =>
      return { tables := tables.updateWhere (fun _ => True) (·.renameReferences old new)
                 (·.name_renameReferences old new)
               indexes := db.indexes.map fun i =>
                 { i with table := if i.table = old then new else i.table } }
  | .addColumn name c => do
    let t ← db.table name
    require (¬ t.HasColumn c.name) .duplicateColumn
    return db.modify name (·.addColumn c) (·.name_addColumn c)

end Database

/-! ### Results of statements -/

section Results

variable {db db' : Database} {name : String} {s : Stmt} {α : Type} {e : Error}

theorem require_bind_eq_ok {p : Prop} [Decidable p] {f : Unit → Except Error α} {a : α} :
    (require p e >>= f) = .ok a ↔ p ∧ f () = .ok a := by
  unfold require
  by_cases hp : p
  · rw [if_pos hp]
    exact (and_iff_right hp).symm
  · rw [if_neg hp]
    exact iff_of_false (fun h => by cases h) fun h => hp h.1

namespace Database

theorem table_bind_eq_ok {f : Table → Except Error α} {a : α} :
    (db.table name >>= f) = .ok a ↔ ∃ t, db.tables.find name = some t ∧ f t = .ok a := by
  unfold table
  cases db.tables.find name with
  | none => exact iff_of_false (fun h => by cases h) fun ⟨t, ht, _⟩ => by cases ht
  | some t => simp [bind, Except.bind]

theorem insertRow_eq_ok_iff {values : List (String × Value)} :
    db.insertRow name values = .ok db' ↔ ∃ t, db.tables.find name = some t ∧
      (∀ p ∈ values, t.HasColumn p.1) ∧ db.Accepts t (t.newRow values) ∧
      db.modify name (·.addRow (t.newRow values)) (·.name_addRow _) = db' := by
  simp only [insertRow, table_bind_eq_ok, require_bind_eq_ok, pure, Except.pure, Except.ok.injEq]

theorem find_modify {other : String} {f : Table → Table} (hf : ∀ t, (f t).name = t.name) :
    (db.modify name f hf).tables.find other =
      (db.tables.find other).map fun t => if other = name then f t else t :=
  KeyedTable.find_modify hf

end Database

end Results

end CS.Sql
