import Mathlib.Data.List.Basic

/-!
# Reads from a buffer

Code that reads a buffer at offsets it computes stops in one of two ways: it throws, or it reads
outside of the buffer. The second must not happen.
-/

namespace CS

/-- Why code that reads a buffer stops. -/
inductive Stop (ε : Type*)
  | thrown (e : ε)
  | outOfRange
  deriving DecidableEq, Repr

universe u

variable {ε : Type*} {α β : Type u}

/-- Throw unless the condition holds. -/
def check (c : Prop) [Decidable c] (e : ε) : Except (Stop ε) PUnit :=
  if c then .ok () else .error (.thrown e)

def readAt (buf : List α) (off : Nat) : Except (Stop ε) α :=
  match buf[off]? with
  | some a => .ok a
  | none => .error .outOfRange

/-- The `n` elements from an offset on, one after the other. -/
def readMany (buf : List α) (off : Nat) : Nat → Except (Stop ε) (List α)
  | 0 => .ok []
  | n + 1 => do
    let a ← readAt buf off
    let as ← readMany buf (off + 1) n
    return a :: as

variable {c : Prop} [Decidable c] {e : ε} {buf : List α} {off n : Nat}

theorem ok_bind (a : α) (f : α → Except (Stop ε) β) : (Except.ok a >>= f) = f a := rfl

theorem check_of_pos (hc : c) : check c e = .ok () := if_pos hc

theorem check_of_neg (hc : ¬ c) : check c e = .error (.thrown e) := if_neg hc

theorem readAt_of_drop {a : α} {rest : List α} (h : buf.drop off = a :: rest) :
    (readAt buf off : Except (Stop ε) α) = .ok a := by
  have hget : buf[off]? = some a := by
    rw [← List.head?_drop, h, List.head?_cons]
  rw [readAt, hget]

theorem readMany_of_le (h : off + n ≤ buf.length) :
    (readMany buf off n : Except (Stop ε) (List α)) = .ok ((buf.drop off).take n) := by
  induction n generalizing off with
  | zero => rfl
  | succ n ih =>
    have hoff : off < buf.length := by omega
    have hdrop : buf.drop off = buf[off] :: buf.drop (off + 1) := List.drop_eq_getElem_cons hoff
    rw [readMany, readAt_of_drop hdrop, ih (by omega), hdrop, List.take_succ_cons]
    rfl

/-- A buffer that is gone through in pieces, each from where the last one ended. -/
theorem take_append_take_drop (l : List α) (pos n : Nat) :
    l.take pos ++ (l.drop pos).take n = l.take (pos + ((l.drop pos).take n).length) := by
  rw [List.take_add, List.length_take]
  congr 1
  exact List.take_eq_take_min

end CS
