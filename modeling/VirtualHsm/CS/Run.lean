import Mathlib.Data.List.Induction
import Mathlib.Logic.Basic

/-!
# Runs of a deterministic transition function

A transition function `step : σ → α → ω × σ` consumes one call in a state and returns an
answer with the next state. `run` folds it over a list of calls and `answers` collects what
the calls returned.
-/

namespace CS

variable {σ α ω : Type*}

section Run

variable (step : σ → α → ω × σ)

/-- The state a list of calls leads to. -/
def run : σ → List α → σ
  | s, [] => s
  | s, a :: as => run (step s a).2 as

/-- The answers a list of calls returns, in order. -/
def answers : σ → List α → List ω
  | _, [] => []
  | s, a :: as => (step s a).1 :: answers (step s a).2 as

/-- The calls of a list with what they returned. -/
def history : σ → List α → List (α × ω)
  | _, [] => []
  | s, a :: as => (a, (step s a).1) :: history (step s a).2 as

/-- Every call of the list meets `ok` in the state it is made in. -/
def Guarded (ok : σ → α → Prop) : σ → List α → Prop
  | _, [] => True
  | s, a :: as => ok s a ∧ Guarded ok (step s a).2 as

instance decidableGuarded (ok : σ → α → Prop) [∀ s a, Decidable (ok s a)] :
    (s : σ) → (as : List α) → Decidable (Guarded step ok s as)
  | _, [] => inferInstanceAs (Decidable True)
  | s, a :: as => @instDecidableAnd _ _ _ (decidableGuarded ok (step s a).2 as)

/-- Some call of the list meets `p` in the state it is made in. -/
def Occurs (p : σ → α → Prop) : σ → List α → Prop
  | _, [] => False
  | s, a :: as => p s a ∨ Occurs p (step s a).2 as

/-- The number of calls that meet `p` in the state they are made in. -/
def occurrences (p : σ → α → Bool) : σ → List α → Nat
  | _, [] => 0
  | s, a :: as => (p s a).toNat + occurrences p (step s a).2 as

/-- The predicate holds in every state of the run, the first and the last included. -/
def Always (inv : σ → Prop) : σ → List α → Prop
  | s, [] => inv s
  | s, a :: as => inv s ∧ Always inv (step s a).2 as

/-- Some call of the list meets `p`, and no later one meets `q`. -/
def Since (p q : σ → α → Prop) (s : σ) (as : List α) : Prop :=
  ∃ before a after, as = before ++ a :: after ∧ p (run step s before) a ∧
    ¬ Occurs step q (run step s (before ++ [a])) after

/-- The states that calls from `start` lead to. -/
def Reachable (start : σ) (s : σ) : Prop := ∃ as : List α, s = run step start as

@[simp] theorem run_nil (s : σ) : run step s [] = s := rfl

@[simp] theorem run_cons (s : σ) (a : α) (as : List α) :
    run step s (a :: as) = run step (step s a).2 as := rfl

@[simp] theorem answers_nil (s : σ) : answers step s [] = [] := rfl

@[simp] theorem answers_cons (s : σ) (a : α) (as : List α) :
    answers step s (a :: as) = (step s a).1 :: answers step (step s a).2 as := rfl

theorem run_append (s : σ) (as bs : List α) :
    run step s (as ++ bs) = run step (run step s as) bs := by
  induction as generalizing s with
  | nil => rfl
  | cons a as ih => exact ih _

theorem answers_append (s : σ) (as bs : List α) :
    answers step s (as ++ bs) = answers step s as ++ answers step (run step s as) bs := by
  induction as generalizing s with
  | nil => rfl
  | cons a as ih => exact congrArg (_ :: ·) (ih _)

theorem length_answers (s : σ) (as : List α) : (answers step s as).length = as.length := by
  induction as generalizing s with
  | nil => rfl
  | cons a as ih => exact congrArg (· + 1) (ih _)

theorem history_append (s : σ) (as bs : List α) :
    history step s (as ++ bs) = history step s as ++ history step (run step s as) bs := by
  induction as generalizing s with
  | nil => rfl
  | cons a as ih => exact congrArg (_ :: ·) (ih _)

theorem history_concat (s : σ) (as : List α) (a : α) :
    history step s (as ++ [a]) = history step s as ++ [(a, (step (run step s as) a).1)] :=
  history_append step s as [a]

theorem occurrences_concat (p : σ → α → Bool) (s : σ) (as : List α) (a : α) :
    occurrences step p s (as ++ [a]) = occurrences step p s as + (p (run step s as) a).toNat := by
  induction as generalizing s with
  | nil => exact Nat.add_comm _ _
  | cons b as ih =>
    rw [List.cons_append, occurrences, ih, occurrences, Nat.add_assoc]
    rfl

variable {step} {s : σ} {as : List α} {ok : σ → α → Prop} {inv : σ → Prop} {p : σ → α → Prop}

theorem guarded_append {bs : List α} : Guarded step ok s (as ++ bs) ↔
    Guarded step ok s as ∧ Guarded step ok (run step s as) bs := by
  induction as generalizing s with
  | nil => exact (and_iff_right trivial).symm
  | cons a as ih => exact (and_congr_right fun _ => ih).trans and_assoc.symm

theorem guarded_true (s : σ) (as : List α) : Guarded step (fun _ _ => True) s as := by
  induction as generalizing s with
  | nil => trivial
  | cons a as ih => exact ⟨trivial, ih _⟩

theorem guarded_of_forall_mem {ok : α → Prop} (has : ∀ a ∈ as, ok a) :
    Guarded step (fun _ => ok) s as := by
  induction as generalizing s with
  | nil => trivial
  | cons a as ih =>
    obtain ⟨ha, hrest⟩ := List.forall_mem_cons.mp has
    exact ⟨ha, ih hrest⟩

theorem Always.start (h : Always step inv s as) : inv s := by
  cases as with
  | nil => exact h
  | cons a as => exact h.1

theorem Always.last (h : Always step inv s as) : inv (run step s as) := by
  induction as generalizing s with
  | nil => exact h
  | cons a as ih => exact ih h.2

theorem Always.imp {inv inv' : σ → Prop} (himp : ∀ s, inv s → inv' s)
    (h : Always step inv s as) : Always step inv' s as := by
  induction as generalizing s with
  | nil => exact himp s h
  | cons a as ih => exact ⟨himp s h.1, ih h.2⟩

/-- A predicate that every guarded step preserves holds in every state of a guarded run. -/
theorem Guarded.always (hstep : ∀ s a, inv s → ok s a → inv (step s a).2)
    (hguard : Guarded step ok s as) (hs : inv s) : Always step inv s as := by
  induction as generalizing s with
  | nil => exact hs
  | cons a as ih => exact ⟨hs, ih hguard.2 (hstep s a hs hguard.1)⟩

/-- And at its end. -/
theorem Guarded.invariant (hstep : ∀ s a, inv s → ok s a → inv (step s a).2)
    (hguard : Guarded step ok s as) (hs : inv s) : inv (run step s as) :=
  (hguard.always hstep hs).last

/-- A run that meets a condition meets every condition that follows from it and from an invariant
of such runs. -/
theorem Guarded.imp {ok' : σ → α → Prop} (hstep : ∀ s a, inv s → ok s a → inv (step s a).2)
    (himp : ∀ s a, inv s → ok s a → ok' s a) (hguard : Guarded step ok s as) (hs : inv s) :
    Guarded step ok' s as := by
  induction as generalizing s with
  | nil => trivial
  | cons a as ih => exact ⟨himp s a hs hguard.1, ih hguard.2 (hstep s a hs hguard.1)⟩

/-- Two conditions on a call that agree under an invariant are met by the same legal runs, when the
second one keeps the invariant. -/
theorem Guarded.congr {legal ok ok' : σ → α → Prop}
    (hiff : ∀ s a, inv s → legal s a → (ok s a ↔ ok' s a))
    (hstep : ∀ s a, inv s → legal s a → ok' s a → inv (step s a).2)
    (hlegal : Guarded step legal s as) (hs : inv s) :
    Guarded step ok s as ↔ Guarded step ok' s as := by
  induction as generalizing s with
  | nil => exact Iff.rfl
  | cons a as ih =>
    obtain ⟨ha, hrest⟩ := hlegal
    have hnext := fun hok => ih hrest (hstep s a hs ha hok)
    rw [Guarded, Guarded, hiff s a hs ha]
    exact and_congr_right hnext

/-- What such a predicate implies for the answer of a guarded call holds of every call of a guarded
run. -/
theorem Guarded.forall_mem_history {Q : α × ω → Prop}
    (hstep : ∀ s a, inv s → ok s a → inv (step s a).2 ∧ Q (a, (step s a).1))
    (hguard : Guarded step ok s as) (hs : inv s) : ∀ x ∈ CS.history step s as, Q x := by
  induction as generalizing s with
  | nil => exact fun x hx => absurd hx List.not_mem_nil
  | cons a as ih =>
    obtain ⟨hnext, ha⟩ := hstep s a hs hguard.1
    exact List.forall_mem_cons.mpr ⟨ha, ih hguard.2 hnext⟩

/-- Along a legal run that begins well, a predicate holds in every state exactly when each call is
fine: a call that is not fine breaks the predicate at once, and one that is fine keeps the stronger
condition on which this rests. -/
theorem Guarded.always_iff {legal ok : σ → α → Prop} {inv base : σ → Prop}
    (hinv : ∀ s, base s → inv s) (hstep : ∀ s a, base s → legal s a → (inv (step s a).2 ↔ ok s a))
    (hbase : ∀ s a, base s → legal s a → ok s a → base (step s a).2)
    (hlegal : Guarded step legal s as) (hs : base s) :
    Always step inv s as ↔ Guarded step ok s as := by
  induction as generalizing s with
  | nil => exact iff_of_true (hinv s hs) trivial
  | cons a as ih =>
    obtain ⟨ha, hrest⟩ := hlegal
    constructor
    · rintro ⟨-, halways⟩
      have hok := (hstep s a hs ha).mp halways.start
      exact ⟨hok, (ih hrest (hbase s a hs ha hok)).mp halways⟩
    · rintro ⟨hok, hguard⟩
      exact ⟨hinv s hs, (ih hrest (hbase s a hs ha hok)).mpr hguard⟩

/-- When the guard says exactly which steps preserve a predicate in the states that an invariant
allows, the runs along which the predicate holds are the guarded ones. -/
theorem always_iff_guarded_of_invariant {inv base : σ → Prop}
    (hbase : ∀ s a, base s → base (step s a).2)
    (hstep : ∀ s a, base s → inv s → (inv (step s a).2 ↔ ok s a))
    (hs : base s) (hinv : inv s) : Always step inv s as ↔ Guarded step ok s as := by
  have hboth : ∀ s a, base s ∧ inv s → ok s a → base (step s a).2 ∧ inv (step s a).2 :=
    fun s a h hok => ⟨hbase s a h.1, (hstep s a h.1 h.2).mpr hok⟩
  exact (guarded_true s as).always_iff (fun _ h => h.2) (fun s a h _ => hstep s a h.1 h.2)
    (fun s a h _ => hboth s a h) ⟨hs, hinv⟩

/-- When the guard says exactly which steps preserve a predicate, the runs along which it holds are
the guarded ones. -/
theorem always_iff_guarded (hstep : ∀ s a, inv s → (inv (step s a).2 ↔ ok s a)) (hs : inv s) :
    Always step inv s as ↔ Guarded step ok s as :=
  have hbase : ∀ s a, (fun _ => True) s → (fun _ => True) (step s a).2 := fun _ _ => id
  always_iff_guarded_of_invariant hbase (fun s a _ => hstep s a) trivial hs

/-- A predicate of the calls so far and of the state they lead to, which every guarded call
preserves, holds at the end of a guarded run. -/
theorem Guarded.history (inv : List α → σ → Prop)
    (hstep : ∀ done a, inv done (run step s done) → ok (run step s done) a →
      inv (done ++ [a]) (step (run step s done) a).2)
    (hguard : Guarded step ok s as) (hs : inv [] s) : inv as (run step s as) := by
  -- The calls made so far grow at the end, so the induction is on the list from its end.
  induction as using List.reverseRecOn with
  | nil => exact hs
  | append_singleton as a ih =>
    obtain ⟨hdone, hlast⟩ := guarded_append.mp hguard
    rw [run_append]
    exact hstep as a (ih hdone) hlast.1

/-- The same without a condition on the calls. -/
theorem run_history (inv : List α → σ → Prop)
    (hstep : ∀ done a, inv done (run step s done) → inv (done ++ [a]) (step (run step s done) a).2)
    (hs : inv [] s) (as : List α) : inv as (run step s as) :=
  (guarded_true s as).history inv (fun done a h _ => hstep done a h) hs

theorem occurs_append {as bs : List α} :
    Occurs step p s (as ++ bs) ↔ Occurs step p s as ∨ Occurs step p (run step s as) bs := by
  induction as generalizing s with
  | nil => exact (or_iff_right not_false).symm
  | cons a as ih => exact (or_congr_right ih).trans or_assoc.symm

theorem Occurs.append_right (h : Occurs step p s as) (bs : List α) : Occurs step p s (as ++ bs) :=
  occurs_append.mpr (.inl h)

theorem Occurs.imp {p q : σ → α → Prop} (himp : ∀ s a, p s a → q s a)
    (h : Occurs step p s as) : Occurs step q s as := by
  induction as generalizing s with
  | nil => exact h
  | cons a as ih => exact Or.imp (himp s a) ih h

theorem occurs_last {a : α} (h : p (run step s as) a) : Occurs step p s (as ++ [a]) :=
  occurs_append.mpr (.inr (.inl h))

/-- What holds at the end of a run and not at its start was brought about by some call. -/
theorem occurs_of_run {P : σ → Prop} (hstep : ∀ s a, P (step s a).2 → P s ∨ p s a)
    (hend : P (run step s as)) (hs : ¬ P s) : Occurs step p s as := by
  induction as generalizing s with
  | nil => exact hs hend
  | cons a as ih =>
    by_cases hnext : P (step s a).2
    · exact .inl ((hstep s a hnext).resolve_left hs)
    · exact .inr (ih hend hnext)

theorem since_last {p q : σ → α → Prop} {a : α} (h : p (run step s as) a) :
    Since step p q s (as ++ [a]) :=
  ⟨as, a, [], rfl, h, not_false⟩

theorem Since.append {p q : σ → α → Prop} (h : Since step p q s as) {a : α}
    (ha : ¬ q (run step s as) a) : Since step p q s (as ++ [a]) := by
  obtain ⟨before, b, after, rfl, hb, hafter⟩ := h
  refine ⟨before, b, after ++ [a], by simp, hb, ?_⟩
  intro hoccurs
  rcases occurs_append.mp hoccurs with hearly | hlast
  · exact hafter hearly
  · rw [← run_append, List.append_assoc, List.singleton_append] at hlast
    exact ha (hlast.resolve_right not_false)

/-- A call is the one in question, or it happens later and does not undo it. -/
theorem since_concat {p q : σ → α → Prop} {a : α} :
    Since step p q s (as ++ [a]) ↔
      p (run step s as) a ∨ Since step p q s as ∧ ¬ q (run step s as) a := by
  constructor
  · rintro ⟨before, b, after, heq, hb, hafter⟩
    -- The last call is the one itself, or it is the last of those after it.
    rcases List.eq_nil_or_concat after with rfl | ⟨init, last, rfl⟩
    · obtain ⟨rfl, hlast⟩ := List.append_inj' heq rfl
      obtain rfl := List.singleton_inj.mp hlast
      exact .inl hb
    · rw [List.concat_eq_append, ← List.cons_append, ← List.append_assoc] at heq
      obtain ⟨rfl, hlast⟩ := List.append_inj' heq rfl
      obtain rfl := List.singleton_inj.mp hlast
      rw [List.concat_eq_append, occurs_append, not_or, ← run_append, List.append_assoc,
        List.singleton_append] at hafter
      refine .inr ⟨⟨before, b, init, rfl, hb, hafter.1⟩, fun hq => hafter.2 (.inl hq)⟩
  · rintro (hlast | ⟨hsince, hq⟩)
    · exact since_last hlast
    · exact hsince.append hq

/-- When both calls in question undo each other, they are one call. -/
theorem Since.unique {p p' q : σ → α → Prop} (hp : ∀ s a, p s a → q s a)
    (hp' : ∀ s a, p' s a → q s a) (h : Since step p q s as)
    (h' : Since step p' q s as) : ∃ s a, p s a ∧ p' s a := by
  induction as using List.reverseRecOn with
  | nil =>
    obtain ⟨before, a, after, hnil, -⟩ := h
    simp at hnil
  | append_singleton as a ih =>
    rcases since_concat.mp h with hlast | ⟨hearly, hnot⟩
    · rcases since_concat.mp h' with hlast' | ⟨-, hnot'⟩
      · exact ⟨_, a, hlast, hlast'⟩
      · exact absurd (hp _ a hlast) hnot'
    · rcases since_concat.mp h' with hlast' | ⟨hearly', -⟩
      · exact absurd (hp' _ a hlast') hnot
      · exact ih hearly hearly'

theorem Occurs.exists_mem (h : Occurs step p s as) : ∃ a ∈ as, ∃ s', p s' a := by
  induction as generalizing s with
  | nil => exact h.elim
  | cons a as ih =>
    rcases h with hfirst | hrest
    · exact ⟨a, List.mem_cons_self, s, hfirst⟩
    · obtain ⟨b, hb, hp⟩ := ih hrest
      exact ⟨b, List.mem_cons_of_mem a hb, hp⟩

/-- A predicate that every step preserves holds in every reachable state. -/
theorem Reachable.invariant (hstep : ∀ s a, inv s → inv (step s a).2) {start s : σ}
    (hreach : Reachable step start s) (hstart : inv start) : inv s := by
  obtain ⟨as, rfl⟩ := hreach
  exact (guarded_true start as).invariant (fun s a h _ => hstep s a h) hstart

end Run

/-- If related states answer every call alike and stay related, then two runs of the same
calls from related states return the same answers. -/
theorem answers_eq_of_related {step : σ → α → ω × σ} {rel : σ → σ → Prop}
    {ok : α → Prop}
    (hstep : ∀ s t a, rel s t → ok a →
      (step s a).1 = (step t a).1 ∧ rel (step s a).2 (step t a).2)
    {s t : σ} (hrel : rel s t) {as : List α} (has : ∀ a ∈ as, ok a) :
    answers step s as = answers step t as := by
  induction as generalizing s t with
  | nil => rfl
  | cons a as ih =>
    obtain ⟨hanswer, hnext⟩ := hstep s t a hrel (has a List.mem_cons_self)
    rw [answers_cons, answers_cons, hanswer,
      ih hnext fun b hb => has b (List.mem_cons_of_mem a hb)]

/-- Calls that an observer does not see, and that leave alone what it sees, can be left out: the
calls that it sees answer the same, and it sees the same in the end. -/
theorem history_filter {step : σ → α → ω × σ} {rel : σ → σ → Prop} {sees : α → Bool}
    (hhidden : ∀ s t a, rel s t → sees a = false → rel (step s a).2 t)
    (hseen : ∀ s t a, rel s t → sees a = true →
      (step s a).1 = (step t a).1 ∧ rel (step s a).2 (step t a).2)
    {s t : σ} (hrel : rel s t) (as : List α) :
    (history step s as).filter (fun x => sees x.1) = history step t (as.filter sees) ∧
      rel (run step s as) (run step t (as.filter sees)) := by
  induction as generalizing s t with
  | nil => exact ⟨rfl, hrel⟩
  | cons a as ih =>
    cases hsees : sees a with
    | false =>
      obtain ⟨hanswers, hend⟩ := ih (hhidden s t a hrel hsees)
      simp only [history, List.filter_cons, hsees, Bool.false_eq_true, if_false, run_cons]
      exact ⟨hanswers, hend⟩
    | true =>
      obtain ⟨hanswer, hnext⟩ := hseen s t a hrel hsees
      obtain ⟨hanswers, hend⟩ := ih hnext
      simp only [history, List.filter_cons, hsees, if_true, run_cons]
      exact ⟨by rw [hanswer, hanswers], hend⟩

/-- Steps that keep an invariant, and that can each be undone where it holds, are undone one after
the other in reverse order. -/
theorem foldl_reverse_foldl {inv : σ → Prop} {f g : σ → α → σ}
    (hkeep : ∀ s a, inv s → inv (f s a)) (hundo : ∀ s a, inv s → g (f s a) a = s) (as : List α)
    {s : σ} (hs : inv s) : inv (as.foldl f s) ∧ as.reverse.foldl g (as.foldl f s) = s := by
  induction as generalizing s with
  | nil => exact ⟨hs, rfl⟩
  | cons a as ih =>
    obtain ⟨hinv, hback⟩ := ih (hkeep s a hs)
    refine ⟨hinv, ?_⟩
    simp only [List.reverse_cons, List.foldl_append, List.foldl_cons, List.foldl_nil, hback]
    exact hundo s a hs

end CS
