import Mathlib.Data.Option.Basic
import Mathlib.Tactic.SplitIfs

/-!
# Transactions on a connection

A connection sees the committed state of a database or, within a transaction, a state of its own
that becomes the committed one when the transaction is committed. Every call may fail. A failed
`COMMIT` or `ROLLBACK` leaves the transaction open, a failed statement may end it, and no
transaction begins within another one.
-/

namespace CS

/-- A connection to a database with states `σ`. -/
structure Connection (σ : Type*) where
  committed : σ
  pending : Option σ := none

namespace Connection

variable {σ : Type*} (c : Connection σ)

/-- `BEGIN`, which fails within a transaction. -/
def begin (fails : Bool) : Option (Connection σ) :=
  if fails || c.pending.isSome then none else some { c with pending := some c.committed }

/-- A statement that succeeds or not. When it fails for another reason than its own, the flag says
whether the database has rolled the transaction back. -/
def exec (f : σ → Option σ) (fault : Option Bool) : Bool × Connection σ :=
  match fault, c.pending with
  | some true, _ => (false, { c with pending := none })
  | some false, _ => (false, c)
  | none, some s =>
    match f s with
    | some s' => (true, { c with pending := some s' })
    | none => (false, c)
  -- Outside of a transaction every statement is committed at once.
  | none, none =>
    match f c.committed with
    | some s' => (true, { c with committed := s' })
    | none => (false, c)

/-- `COMMIT`, which fails without a transaction. -/
def commit (fails : Bool) : Bool × Connection σ :=
  match fails, c.pending with
  | false, some s => (true, ⟨s, none⟩)
  | _, _ => (false, c)

/-- `ROLLBACK`. -/
def rollback (fails : Bool) : Connection σ :=
  if fails then c else { c with pending := none }

variable {c} {c' : Connection σ} {fails : Bool}

theorem begin_eq_some (h : c.begin fails = some c') :
    c.pending = none ∧ fails = false ∧ c' = ⟨c.committed, some c.committed⟩ := by
  unfold begin at h
  split_ifs at h with hcond
  obtain ⟨hfails, hpending⟩ := by simpa using hcond
  exact ⟨hpending, hfails, (Option.some.inj h).symm⟩

theorem begin_of_closed (h : c.pending = none) :
    c.begin false = some ⟨c.committed, some c.committed⟩ := by
  rw [begin, h]
  rfl

theorem committed_rollback : (c.rollback fails).committed = c.committed := by
  unfold rollback
  split_ifs <;> rfl

/-- A statement within a transaction works on the state of the transaction. -/
theorem exec_of_pending {s : σ} (h : c.pending = some s) (f : σ → Option σ) (fault : Option Bool) :
    (∃ s', fault = none ∧ f s = some s' ∧ c.exec f fault = (true, { c with pending := some s' })) ∨
      ((c.exec f fault).1 = false ∧ (c.exec f fault).2.committed = c.committed ∧
        (fault = none → f s = none)) := by
  cases fault with
  | some aborts =>
    refine .inr ⟨?_, ?_, fun hnone => nomatch hnone⟩
    · cases aborts <;> rfl
    · cases aborts <;> rfl
  | none =>
    cases hf : f s with
    | none =>
      have hexec : c.exec f none = (false, c) := by simp only [exec, h, hf]
      rw [hexec]
      exact .inr ⟨rfl, rfl, fun _ => rfl⟩
    | some s' =>
      have hexec : c.exec f none = (true, { c with pending := some s' }) := by
        simp only [exec, h, hf]
      exact .inl ⟨s', rfl, rfl, hexec⟩

theorem commit_of_pending {s : σ} (h : c.pending = some s) (fails : Bool) :
    c.commit fails = if fails then (false, c) else (true, ⟨s, none⟩) := by
  unfold commit
  rw [h]
  cases fails <;> rfl

end Connection

end CS
