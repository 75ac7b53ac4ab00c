import VirtualHsm.CS.Buffer
import VirtualHsm.Pkcs11.CallEffect

/-!
# Search results in batches

`C_FindObjectsInit` collects the handles that match, and `C_FindObjects` hands them out from a
cursor, as many as the caller asks for. Nothing else on the session touches the list or the cursor
until `C_FindObjectsFinal`. A call without an array for the handles is not refused: it counts a
batch and moves the cursor past it, so that these handles are never returned.
-/

namespace VirtualHsm

/-! ### The calls of a search -/

/-- A call on the session with what it returned. -/
abbrev Logged := (Env × SessionCall) × Answer

namespace Logged

/-- The handles that a call of a search wrote. -/
def batch : Logged → List CkUlong
  | ((_, .object (.findObjects ..)), a) => a.handles
  | _ => []

/-- The number of handles that a call of a search counted without writing them. -/
def skipped : Logged → Nat
  | ((_, .object (.findObjects false _ _)), a) => a.len.getD 0
  | _ => 0

/-- The call of a search returned fewer handles than it was asked for. -/
def RunsShort : Logged → Prop
  | ((_, .object (.findObjects _ maxCount _)), a) => a.rv = .ok ∧ ∃ n, a.len = some n ∧ n < maxCount
  | _ => False

/-- If this is a call of a search that succeeded, it returned no handle. -/
def FindsNone : Logged → Prop
  | ((_, .object (.findObjects ..)), a) => a.rv = .ok → a.handles = [] ∧ a.len = some 0
  | _ => True

end Logged

/-- The batches of a log, one after the other. -/
def batches (log : List Logged) : List CkUlong := log.flatMap Logged.batch

/-- The number of handles that calls of the log have left out. -/
def skippedHandles (log : List Logged) : Nat := (log.map Logged.skipped).sum

/-- The call has an array for the handles that it finds. -/
def SessionCall.PassesArray : SessionCall → Prop
  | .object (.findObjects phObject _ _) => phObject = true
  | _ => True

section Concat

variable (log : List Logged) (x : Logged)

theorem batches_concat : batches (log ++ [x]) = batches log ++ x.batch := by
  simp [batches]

theorem skippedHandles_concat : skippedHandles (log ++ [x]) = skippedHandles log + x.skipped := by
  simp [skippedHandles]

end Concat

theorem Logged.skipped_of_passesArray {x : Logged} (hx : x.1.2.PassesArray) : x.skipped = 0 := by
  unfold skipped
  split
  · exact absurd hx Bool.false_ne_true
  · rfl

/-- The call has returned no batch. -/
structure Logged.Idle (x : Logged) : Prop where
  batch : x.batch = []
  skipped : x.skipped = 0
  not_runsShort : ¬ x.RunsShort
  findsNone : x.FindsNone

theorem Logged.idle_of_refused {x : Env × SessionCall} {a : Answer}
    (hrefused : ∀ phObject maxCount pulCount,
      x.2 = .object (.findObjects phObject maxCount pulCount) → a = { rv := .argumentsBad }) :
    Idle (x, a) := by
  obtain ⟨env, call⟩ := x
  cases call with
  | object c =>
    cases c with
    | findObjects phObject maxCount pulCount =>
      obtain rfl := hrefused phObject maxCount pulCount rfl
      refine ⟨rfl, ?_, ?_, ?_⟩
      · cases phObject <;> rfl
      · rintro ⟨hok, -⟩
        cases hok
      · exact nofun
    | _ => exact ⟨rfl, rfl, id, trivial⟩
  | _ => exact ⟨rfl, rfl, id, trivial⟩

/-! ### The search of a session -/

/-- The update leaves the search alone. -/
def SessionUpdate.KeepsSearch (u : SessionUpdate) : Prop :=
  ∀ s, (u.run s).findHandles = s.findHandles ∧ (u.run s).findPos = s.findPos ∧
    (u.run s).findActive = s.findActive

theorem SessionUpdate.keepsSearch_none : none.KeepsSearch := fun _ => ⟨rfl, rfl, rfl⟩

theorem SessionUpdate.OnlyOperation.keepsSearch {u : SessionUpdate} (hu : u.OnlyOperation) :
    u.KeepsSearch := by
  induction hu with
  | opBegin mech key =>
    intro s
    change ((s.opBegin mech key).2).findHandles = _ ∧ ((s.opBegin mech key).2).findPos = _ ∧
      ((s.opBegin mech key).2).findActive = _
    unfold Session.opBegin
    split_ifs <;> exact ⟨rfl, rfl, rfl⟩
  | andThen _ _ ihu ihv =>
    intro s
    obtain ⟨hhandles, hpos, hactive⟩ := ihu s
    obtain ⟨hhandles', hpos', hactive'⟩ := ihv (SessionUpdate.run _ s)
    exact ⟨hhandles'.trans hhandles, hpos'.trans hpos, hactive'.trans hactive⟩
  | _ => exact fun _ => ⟨rfl, rfl, rfl⟩

/-- The call is one of the three of a search. -/
def SessionCall.Searches : SessionCall → Prop
  | .object (.findObjectsInit _) | .object (.findObjects ..) | .object .findObjectsFinal => True
  | _ => False

namespace Hsm

variable {be : Backend} {hsm : Hsm} {h : CkUlong} {results : List CkUlong} {pos : Nat}

theorem keepsSearch_sessionCall {env : Env} {c : SessionCall} (hc : ¬ c.Searches) :
    Yields (fun e => e.update.KeepsSearch) (hsm.sessionCall be env h c) := by
  cases c with
  | object c =>
    intro e he
    have hupdate := (objectCall_yields c e he).1
    cases c with
    | findObjectsInit | findObjects | findObjectsFinal => exact absurd trivial hc
    | _ => exact hupdate ▸ SessionUpdate.keepsSearch_none
  | key c => exact (keyCall_yields c).imp fun _ he => he.1 ▸ SessionUpdate.keepsSearch_none
  | crypto c => exact (onlyOperation_cryptoCall c).imp fun _ he => he.keepsSearch

/-- A call on the session with the handle. -/
def onSession (be : Backend) (h : CkUlong) (hsm : Hsm) (x : Env × SessionCall) : Answer × Hsm :=
  hsm.api be (.onSession x.1 h x.2)

/-- The session has a search for the results, of which `pos` are past the cursor. -/
structure Searching (hsm : Hsm) (h : CkUlong) (results : List CkUlong) (pos : Nat) : Prop where
  initialized : hsm.initialized = true
  session : ∃ s, hsm.getSession h = some s ∧ s.findHandles = results ∧ s.findPos = pos ∧
    s.findActive = true

/-- The search after a call that has had an effect is that of the session after it. -/
theorem searching_finish (hinit : hsm.initialized = true) {s : Session}
    (hs : hsm.getSession h = some s) (e : Effect) (hactive : (e.after s).findActive = true) :
    Searching (hsm.finish h (.ok e)).2 h (e.after s).findHandles (e.after s).findPos := by
  refine ⟨?_, e.after s, ?_, rfl, rfl, hactive⟩
  · rw [initialized_finish]
    exact hinit
  · rw [getSession_finish]
    simp only [if_true, hs, Option.map_some]

/-- The handles collected for a template are handed out from the first one on. -/
theorem searching_of_findObjectsInit {s : Session} {env : Env} {templ : List CkAttribute}
    (hs : hsm.getSession h = some s)
    (hok : (hsm.onSession be h (env, .object (.findObjectsInit templ))).1.rv = .ok) :
    Searching (hsm.onSession be h (env, .object (.findObjectsInit templ))).2 h
      (s.objectStore.findHandles templ) 0 := by
  change (hsm.finish h (hsm.cFindObjectsInit h templ)).1.rv = .ok at hok
  change Searching (hsm.finish h (hsm.cFindObjectsInit h templ)).2 h _ 0
  have hfails : Fails (fun _ => True) (hsm.cFindObjectsInit h templ) :=
    fails_refuseIf_bind (fun _ => by decide) fun _ =>
      fails_orRefuse_bind (by decide) fun _ _ =>
        fails_refuseIf_bind (fun _ => by decide) fun _ => trivial
  obtain ⟨e, he⟩ := exists_of_finish_ok hfails hok
  rw [he]
  simp only [cFindObjectsInit, checkInitialized, refuseIf_bind_eq_ok, orRefuse_bind_eq_ok] at he
  obtain ⟨hinit, s', hs', -, he⟩ := he
  obtain rfl : s = s' := Option.mem_unique hs hs'
  cases he
  exact searching_finish (Bool.eq_true_of_not_eq_false hinit) hs _ rfl

theorem Searching.findObjectsInit (hsearch : Searching hsm h results pos) (env : Env)
    (templ : List CkAttribute) :
    hsm.onSession be h (env, .object (.findObjectsInit templ)) =
      ({ rv := .operationActive }, hsm) := by
  obtain ⟨hinit, s, hs, -, -, hactive⟩ := hsearch
  have hcall : hsm.cFindObjectsInit h templ = .error .operationActive := by
    simp [cFindObjectsInit, checkInitialized, refuseIf, orRefuse, hinit, hs, hactive, bind,
      Except.bind]
  change hsm.finish h (hsm.cFindObjectsInit h templ) = _
  rw [hcall]
  rfl

/-- What a call of the search returns. -/
def batchAnswer (results : List CkUlong) (pos : Nat) (phObject : Bool) (maxCount : Nat) : Answer :=
  let batch := (results.drop pos).take maxCount
  { rv := .ok, handles := if phObject then batch else [], len := some batch.length }

theorem Searching.findObjects (be : Backend) (hsearch : Searching hsm h results pos) (env : Env)
    (phObject : Bool) (maxCount : Nat) :
    let out := hsm.onSession be h (env, .object (.findObjects phObject maxCount true))
    out.1 = batchAnswer results pos phObject maxCount ∧
      Searching out.2 h results (pos + ((results.drop pos).take maxCount).length) := by
  intro out
  obtain ⟨hinit, s, hs, rfl, rfl, hactive⟩ := hsearch
  have hcall : hsm.cFindObjects h phObject maxCount true = .ok
      { answer := batchAnswer s.findHandles s.findPos phObject maxCount
        update := .findNextBatch maxCount } := by
    simp [cFindObjects, refuseIf, orRefuse, hs, hactive, bind, Except.bind, pure, Except.pure,
      Session.findNextBatch, batchAnswer]
  have hout : out = hsm.finish h (hsm.cFindObjects h phObject maxCount true) := rfl
  rw [hout, hcall]
  exact ⟨finish_answer _, searching_finish hinit hs _ hactive⟩

variable {x : Env × SessionCall} {calls : List (Env × SessionCall)}

/-- What one call does to a search, other than ending it: it returns the next batch and moves the
cursor past it, or it returns none and leaves the search. -/
theorem Searching.step (be : Backend) (hsearch : Searching hsm h results pos)
    (hx : x.2 ≠ .object .findObjectsFinal) :
    (∃ phObject maxCount, x.2 = .object (.findObjects phObject maxCount true) ∧
      (hsm.onSession be h x).1 = batchAnswer results pos phObject maxCount ∧
      Searching (hsm.onSession be h x).2 h results
        (pos + ((results.drop pos).take maxCount).length)) ∨
    (Logged.Idle (x, (hsm.onSession be h x).1) ∧
      Searching (hsm.onSession be h x).2 h results pos) := by
  obtain ⟨env, call⟩ := x
  by_cases hcall : call.Searches
  · unfold SessionCall.Searches at hcall
    split at hcall
    · rename_i templ
      rw [hsearch.findObjectsInit]
      exact .inr ⟨⟨rfl, rfl, id, trivial⟩, hsearch⟩
    · rename_i phObject maxCount pulCount
      cases pulCount with
      -- Without a place for the count the call is refused before it moves the cursor.
      | false => exact .inr ⟨Logged.idle_of_refused fun _ _ _ _ => rfl, hsearch⟩
      | true => exact .inl ⟨phObject, maxCount, rfl, hsearch.findObjects be env phObject maxCount⟩
    · exact absurd rfl hx
    · exact hcall.elim
  · refine .inr ⟨Logged.idle_of_refused fun phObject maxCount pulCount heq => ?_, ?_⟩
    · obtain rfl : call = .object (.findObjects phObject maxCount pulCount) := heq
      exact absurd trivial hcall
    · change Searching (hsm.finish h (hsm.sessionCall be env h call)).2 h results pos
      cases hr : hsm.sessionCall be env h call with
      | error rv => exact hsearch
      | ok e =>
        obtain ⟨hinit, s, hs, hhandles, hpos, hactive⟩ := hsearch
        obtain ⟨hhandles', hpos', hactive'⟩ := keepsSearch_sessionCall hcall e hr s
        rw [← hhandles, ← hpos, ← hhandles', ← hpos']
        exact searching_finish hinit hs e (hactive'.trans hactive)

/-! ### The search as a whole -/

/-- The batches of the calls so far: they and the handles that were left out make up what the
cursor has passed, and if none was left out they are just that. -/
structure Reached (h : CkUlong) (results : List CkUlong) (log : List Logged) (hsm : Hsm)
    (pos : Nat) : Prop where
  searching : Searching hsm h results pos
  le_length : pos ≤ results.length
  counted : pos = (batches log).length + skippedHandles log
  taken : skippedHandles log = 0 → batches log = results.take pos

theorem logged_batchAnswer (results : List CkUlong) (pos : Nat) {phObject : Bool} {maxCount : Nat}
    (hx : x.2 = .object (.findObjects phObject maxCount true)) :
    Logged.batch (x, batchAnswer results pos phObject maxCount) =
        (if phObject then (results.drop pos).take maxCount else []) ∧
      Logged.skipped (x, batchAnswer results pos phObject maxCount) =
        if phObject then 0 else ((results.drop pos).take maxCount).length := by
  obtain ⟨env, call⟩ := x
  obtain rfl : call = _ := hx
  cases phObject <;> exact ⟨rfl, rfl⟩

theorem Reached.step (be : Backend) {log : List Logged} (hreach : Reached h results log hsm pos)
    (hx : x.2 ≠ .object .findObjectsFinal) :
    ∃ pos', Reached h results (log ++ [(x, (hsm.onSession be h x).1)]) (hsm.onSession be h x).2
      pos' := by
  obtain ⟨hsearch, hle, hcounted, htaken⟩ := hreach
  rcases hsearch.step be hx with ⟨phObject, maxCount, hcall, hanswer, hnext⟩ | ⟨hidle, hnext⟩
  · obtain ⟨hbatch, hskipped⟩ := logged_batchAnswer results pos hcall
    rw [hanswer]
    refine ⟨_, hnext, ?_, ?_, ?_⟩
    · rw [List.length_take, List.length_drop]
      omega
    · rw [batches_concat, skippedHandles_concat, hbatch, hskipped, List.length_append]
      cases phObject with
      | false => simp only [Bool.false_eq_true, if_false, List.length_nil]; omega
      | true => simp only [if_true]; omega
    · intro hnone
      rw [skippedHandles_concat, hskipped] at hnone
      obtain ⟨hbefore, hthis⟩ := Nat.add_eq_zero_iff.mp hnone
      rw [batches_concat, hbatch, htaken hbefore]
      cases phObject with
      | false =>
        -- Without an array handles are skipped, unless there was none.
        rw [if_neg Bool.false_ne_true] at hthis ⊢
        rw [hthis, List.append_nil, Nat.add_zero]
      | true => exact CS.take_append_take_drop results pos maxCount
  · refine ⟨pos, hnext, hle, ?_, ?_⟩
    · rw [batches_concat, skippedHandles_concat, hidle.batch, hidle.skipped, List.append_nil]
      exact hcounted
    · rw [batches_concat, skippedHandles_concat, hidle.batch, hidle.skipped, List.append_nil]
      exact htaken

/-- How far any calls get that do not end the search. -/
theorem exists_reached (be : Backend) (hsearch : Searching hsm h results 0)
    (hcalls : ∀ x ∈ calls, x.2 ≠ .object .findObjectsFinal) :
    ∃ pos, Reached h results (CS.history (onSession be h) hsm calls)
      (CS.run (onSession be h) hsm calls) pos := by
  have hguard :
      CS.Guarded (onSession be h) (fun _ x => x.2 ≠ .object .findObjectsFinal) hsm calls :=
    CS.guarded_of_forall_mem hcalls
  refine hguard.history
    (fun done hsm' => ∃ pos, Reached h results (CS.history (onSession be h) hsm done) hsm' pos)
    (fun done x hdone hx => ?_) ⟨0, hsearch, Nat.zero_le _, rfl, fun _ => rfl⟩
  obtain ⟨pos, hreach⟩ := hdone
  rw [CS.history_concat]
  exact hreach.step be hx

/-- The batches that calls on the session return for the results. -/
structure BatchesWhole (be : Backend) (h : CkUlong) (hsm : Hsm) (results : List CkUlong)
    (calls : List (Env × SessionCall)) : Prop where
  /-- They are the beginning of the results. -/
  isPrefix : batches (CS.history (onSession be h) hsm calls) <+: results
  /-- Once a call returns fewer handles than it was asked for they are the whole, and no later call
  finds anything. -/
  whole : ∀ before x after, calls = before ++ x :: after →
    Logged.RunsShort (x, ((CS.run (onSession be h) hsm before).onSession be h x).1) →
    batches (CS.history (onSession be h) hsm (before ++ [x])) = results ∧
      ∀ y ∈ CS.history (onSession be h) (CS.run (onSession be h) hsm (before ++ [x])) after,
        Logged.FindsNone y
  /-- Until the search is ended no other one starts. -/
  active : ∀ env templ, ((CS.run (onSession be h) hsm calls).onSession be h
    (env, .object (.findObjectsInit templ))).1.rv = .operationActive

theorem skippedHandles_append (log log' : List Logged) :
    skippedHandles (log ++ log') = skippedHandles log + skippedHandles log' := by
  simp [skippedHandles]

theorem Searching.pos_unique {pos' : Nat} (hsearch : Searching hsm h results pos)
    (hsearch' : Searching hsm h results pos') : pos = pos' := by
  obtain ⟨-, s, hs, -, hpos, -⟩ := hsearch
  obtain ⟨-, s', hs', -, hpos', -⟩ := hsearch'
  obtain rfl : s = s' := Option.mem_unique hs hs'
  exact hpos.symm.trans hpos'

/-- A call that returns fewer handles than it was asked for brings the cursor to the end. -/
theorem Searching.length_le_of_runsShort {pos' : Nat} (hsearch : Searching hsm h results pos)
    (hx : x.2 ≠ .object .findObjectsFinal) (hshort : Logged.RunsShort (x, (hsm.onSession be h x).1))
    (hnext : Searching (hsm.onSession be h x).2 h results pos') : results.length ≤ pos' := by
  obtain ⟨env, call⟩ := x
  rcases hsearch.step be hx with ⟨phObject, maxCount, hcall, hanswer, hmoved⟩ | ⟨hidle, -⟩
  · obtain rfl : call = _ := hcall
    rw [hanswer] at hshort
    obtain ⟨-, n, hn, hlt⟩ := hshort
    cases hn
    rw [← hmoved.pos_unique hnext]
    simp only [List.length_take, List.length_drop] at hlt ⊢
    omega
  · exact absurd hshort hidle.not_runsShort

/-- At the end of the results nothing is found any more. -/
theorem Searching.findsNone (hsearch : Searching hsm h results pos) (hend : results.length ≤ pos)
    (hx : x.2 ≠ .object .findObjectsFinal) :
    Searching (hsm.onSession be h x).2 h results pos ∧
      Logged.FindsNone (x, (hsm.onSession be h x).1) := by
  have hdrop : results.drop pos = [] := List.drop_eq_nil_of_le hend
  obtain ⟨env, call⟩ := x
  rcases hsearch.step be hx with ⟨phObject, maxCount, hcall, hanswer, hnext⟩ | ⟨hidle, hnext⟩
  · obtain rfl : call = _ := hcall
    rw [hdrop, List.take_nil] at hnext
    refine ⟨hnext, fun _ => ?_⟩
    rw [hanswer, batchAnswer, hdrop, List.take_nil]
    exact ⟨ite_self _, rfl⟩
  · exact ⟨hnext, hidle.findsNone⟩

/-- As long as no call skips handles, the batches are the result. -/
theorem Searching.batchesWhole (be : Backend) (hsearch : Searching hsm h results 0)
    (hcalls : ∀ x ∈ calls, x.2 ≠ .object .findObjectsFinal)
    (hnone : skippedHandles (CS.history (onSession be h) hsm calls) = 0) :
    BatchesWhole be h hsm results calls := by
  obtain ⟨pos, hreach⟩ := exists_reached be hsearch hcalls
  refine ⟨?_, ?_, fun env templ => by rw [hreach.searching.findObjectsInit]⟩
  · rw [hreach.taken hnone]
    exact List.take_prefix pos results
  · rintro before x after rfl hshort
    have hbefore : ∀ y ∈ before, y.2 ≠ .object .findObjectsFinal :=
      fun y hy => hcalls y (List.mem_append_left _ hy)
    have hx : x.2 ≠ .object .findObjectsFinal := hcalls x (by simp)
    have hafter : ∀ y ∈ after, y.2 ≠ .object .findObjectsFinal :=
      fun y hy => hcalls y (by simp [hy])
    obtain ⟨pos₀, hstart⟩ := exists_reached be hsearch hbefore
    obtain ⟨pos₁, hthis⟩ := exists_reached be hsearch
      (List.forall_mem_append.mpr ⟨hbefore, List.forall_mem_singleton.mpr hx⟩)
    have hend : results.length ≤ pos₁ := by
      have hnext := hthis.searching
      rw [CS.run_append] at hnext
      exact hstart.searching.length_le_of_runsShort hx hshort hnext
    have hnone' : skippedHandles (CS.history (onSession be h) hsm (before ++ [x])) = 0 := by
      rw [List.append_cons, CS.history_append, skippedHandles_append] at hnone
      exact (Nat.add_eq_zero_iff.mp hnone).1
    refine ⟨?_, ?_⟩
    · rw [hthis.taken hnone', List.take_of_length_le hend]
    · have hstep : ∀ (st : Hsm) y, Searching st h results pos₁ → y.2 ≠ .object .findObjectsFinal →
          Searching (st.onSession be h y).2 h results pos₁ ∧
            Logged.FindsNone (y, (st.onSession be h y).1) :=
        fun st y hat hy => hat.findsNone hend hy
      exact (CS.guarded_of_forall_mem hafter).forall_mem_history hstep hthis.searching

theorem skippedHandles_of_passesArray (be : Backend) (hsm : Hsm)
    (hcalls : ∀ x ∈ calls, x.2.PassesArray) :
    skippedHandles (CS.history (onSession be h) hsm calls) = 0 := by
  induction calls generalizing hsm with
  | nil => rfl
  | cons x calls ih =>
    obtain ⟨hx, hrest⟩ := List.forall_mem_cons.mp hcalls
    have hskipped : Logged.skipped (x, (hsm.onSession be h x).1) = 0 :=
      Logged.skipped_of_passesArray hx
    have hlog := ih (hsm.onSession be h x).2 hrest
    rw [CS.history, ← List.singleton_append, skippedHandles_append, hlog]
    exact hskipped

/-- Handles that were skipped are missing when one more call asks for all that is left. -/
theorem Searching.skippedHandles_eq_zero (hsearch : Searching hsm h results 0) (hcalls : ∀ x ∈ calls, x.2 ≠ .object .findObjectsFinal)
    {env : Env} (hwhole : BatchesWhole be h hsm results
      (calls ++ [(env, .object (.findObjects true (results.length + 1) true))])) :
    skippedHandles (CS.history (onSession be h) hsm calls) = 0 := by
  obtain ⟨pos, hreach⟩ := exists_reached be hsearch hcalls
  obtain ⟨hanswer, -⟩ := hreach.searching.findObjects be env true (results.length + 1)
  have hbatch : (results.drop pos).take (results.length + 1) = results.drop pos :=
    List.take_of_length_le (by rw [List.length_drop]; omega)
  rw [batchAnswer, hbatch] at hanswer
  obtain ⟨hall, -⟩ := hwhole.whole calls _ [] rfl (by
    rw [hanswer]
    exact ⟨rfl, _, rfl, by rw [List.length_drop]; omega⟩)
  have hlength := congrArg List.length hall
  rw [CS.history_concat, batches_concat, hanswer, List.length_append] at hlength
  have hlast : (results.drop pos).length = results.length - pos := List.length_drop
  have hcounted := hreach.counted
  have hle := hreach.le_length
  change _ + (results.drop pos).length = _ at hlength
  omega

/-- Exactly the calls that have skipped no handle have returned, and go on to return, the batches of
the result. -/
theorem batchesWhole_iff (be : Backend) {s : Session} {env : Env} {templ : List CkAttribute}
    (hs : hsm.getSession h = some s)
    (hok : (hsm.onSession be h (env, .object (.findObjectsInit templ))).1.rv = .ok)
    {calls : List (Env × SessionCall)} (hcalls : ∀ x ∈ calls, x.2 ≠ .object .findObjectsFinal) :
    (∀ more, (∀ x ∈ more, x.2 ≠ .object .findObjectsFinal ∧ x.2.PassesArray) →
      BatchesWhole be h (hsm.onSession be h (env, .object (.findObjectsInit templ))).2
        (s.objectStore.findHandles templ) (calls ++ more)) ↔
    skippedHandles (CS.history (onSession be h)
      (hsm.onSession be h (env, .object (.findObjectsInit templ))).2 calls) = 0 := by
  have hsearch := searching_of_findObjectsInit hs hok
  generalize (hsm.onSession be h (env, .object (.findObjectsInit templ))).2 = start at hsearch ⊢
  generalize s.objectStore.findHandles templ = results at hsearch ⊢
  have hsplit : ∀ more, skippedHandles (CS.history (onSession be h) start (calls ++ more)) =
      skippedHandles (CS.history (onSession be h) start calls) +
        skippedHandles (CS.history (onSession be h) (CS.run (onSession be h) start calls) more) :=
    fun more => by rw [CS.history_append, skippedHandles_append]
  constructor
  · intro hwhole
    have hlast : ∀ x ∈ [((env, .object (.findObjects true (results.length + 1) true)) :
        Env × SessionCall)], x.2 ≠ .object .findObjectsFinal ∧ x.2.PassesArray := by
      refine List.forall_mem_singleton.mpr ⟨?_, rfl⟩
      intro heq
      cases heq
    exact hsearch.skippedHandles_eq_zero hcalls (hwhole _ hlast)
  · intro hnone more hmore
    apply hsearch.batchesWhole be
    · intro x hx
      exact (List.mem_append.mp hx).elim (hcalls x) fun hx => (hmore x hx).1
    · rw [hsplit, hnone, Nat.zero_add]
      exact skippedHandles_of_passesArray be _ fun x hx => (hmore x hx).2

/-! ### Two objects -/

/-- The first session has created two private keys. -/
def twoObjects : Hsm :=
  CS.run (onSession .toy 1) oneSession
    [({}, .object (.createObject [⟨ckaClass, .data (ulongBytes ckoPrivateKey)⟩] true)),
     ({}, .object (.createObject [⟨ckaClass, .data (ulongBytes ckoPrivateKey)⟩] true))]

/-- A search for every object. -/
def searchAll : Env × SessionCall := ({}, .object (.findObjectsInit []))

/-- Batches of any size, with a digest that begins and an object that is destroyed in between. -/
def mixedCalls : List (Env × SessionCall) :=
  [({}, .object (.findObjects true 1 true)),
   ({}, .crypto (.digestInit (some ⟨ckmSha256, .absent⟩))),
   ({}, .object (.destroyObject 1)),
   ({}, .object (.findObjects true 0 true)),
   ({}, .object (.findObjects true 5 true))]

theorem batchesWhole_mixedCalls :
    ∃ s, twoObjects.getSession 1 = some s ∧ (s.objectStore.findHandles []).length = 2 ∧
      BatchesWhole .toy 1 (twoObjects.onSession .toy 1 searchAll).2 (s.objectStore.findHandles [])
        mixedCalls := by
  refine ⟨_, rfl, by decide, ?_⟩
  have hcalls : ∀ x ∈ mixedCalls, x.2 ≠ .object .findObjectsFinal := by
    simp [mixedCalls]
  have hok : (twoObjects.onSession .toy 1 searchAll).1.rv = .ok := by decide
  have hnone : skippedHandles (CS.history (onSession .toy 1)
      (twoObjects.onSession .toy 1 searchAll).2 mixedCalls) = 0 := by decide
  have hwhole := (batchesWhole_iff .toy rfl hok hcalls).mpr hnone []
  rw [List.append_nil] at hwhole
  exact hwhole fun x hx => absurd hx List.not_mem_nil

/-- Without an array the first handle is counted and never returned. -/
theorem not_batchesWhole_noArray :
    ∃ s, twoObjects.getSession 1 = some s ∧
      ¬ BatchesWhole .toy 1 (twoObjects.onSession .toy 1 searchAll).2 (s.objectStore.findHandles [])
        [({}, .object (.findObjects false 1 true)), ({}, .object (.findObjects true 5 true))] := by
  refine ⟨_, rfl, fun hwhole => ?_⟩
  have hprefix := hwhole.isPrefix
  revert hprefix
  decide

end Hsm

end VirtualHsm
