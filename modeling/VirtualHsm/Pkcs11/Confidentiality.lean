import VirtualHsm.Keystore.Redaction
import VirtualHsm.Pkcs11.Creation

/-!
# What the attribute interface reveals

Two states of the module that differ in the key bytes of sensitive objects only are run side by
side. A read is hidden when it answers alike in all such pairs: a call of `C_GetAttributeValue`,
or a search with any number of batches. Key bytes leak through the private-key attributes of the
module, which can be read and searched for; everything else is hidden.
-/

namespace VirtualHsm

/-! ### Matching up to key bytes -/

/-- The entry compares key bytes. -/
def CkAttribute.AsksSecret (a : CkAttribute) : Prop :=
  a.type ∈ leakTypes ∧ ∃ v, v ≠ [] ∧ a.value = .data v

section Match

variable {o o' : HsmObject} {a : CkAttribute} {templ : List CkAttribute}

theorem matchEntry_congr (h : o.redact = o'.redact)
    (ha : ¬ (o.sensitive = true ∧ a.AsksSecret)) : matchEntry o a = matchEntry o' a := by
  unfold matchEntry
  cases hvalue : a.value with
  | null n =>
    have hsafe : ¬ o.Leaks a.type (.null 0) := by
      rintro ⟨-, -, v, old, -, -, hbuf, -⟩
      cases hbuf
    simp only [HsmObject.getAttribute_congr h hsafe]
  | data v =>
    have hsafe : ¬ o.Leaks a.type (.data (List.replicate v.length 0)) := by
      rintro ⟨hs, ht, w, old, -, hw, hbuf, hlen⟩
      -- A buffer that key bytes fit into has the length of the entry, which is not empty.
      refine ha ⟨hs, ht, v, ?_, hvalue⟩
      rintro rfl
      obtain rfl : [] = old := CkBuf.data.inj hbuf
      exact hw (List.eq_nil_of_length_eq_zero (Nat.le_zero.mp hlen))
    simp only [HsmObject.getAttribute_congr h hsafe]

theorem matchObject_congr (h : o.redact = o'.redact)
    (ha : ¬ (o.sensitive = true ∧ ∃ a ∈ templ, a.AsksSecret)) :
    matchObject o templ = matchObject o' templ := by
  unfold matchObject
  rw [Bool.eq_iff_iff, List.all_eq_true, List.all_eq_true]
  refine forall₂_congr fun a hmem => ?_
  rw [matchEntry_congr h fun hask => ha ⟨hask.1, a, hmem, hask.2⟩]

theorem not_matchObject_bump (hs : o.sensitive = true) (hmem : a ∈ templ) (ha : a.AsksSecret)
    (hmatch : matchObject o templ = true) : matchObject (o.mapSecrets bump) templ = false := by
  obtain ⟨t, value⟩ := a
  obtain ⟨ht, v, hv, rfl⟩ := ha
  have harray : (CkAttribute.mk t (.data v)).isArray = false := by
    have hflag : ∀ t ∈ leakTypes, t &&& ckfArrayAttribute = 0 := forall_mem_of_all (by decide)
    simp [CkAttribute.isArray, hflag t ht]
  have hentry := (matchEntry_data harray).mp (matchObject_iff.mp hmatch _ hmem)
  have hfind : o.findAttribute t = some v := by
    rw [o.attributeValue_of_mem_leakTypes ht] at hentry
    cases hfind : o.findAttribute t with
    | none => simp [hfind] at hentry
    | some w =>
      rw [hfind] at hentry
      rw [Except.ok.inj hentry]
  by_contra hstill
  have hentry' := (matchEntry_data harray).mp
    (matchObject_iff.mp (Bool.eq_true_of_not_eq_false hstill) _ hmem)
  rw [HsmObject.attributeValue_of_mem_leakTypes ht, HsmObject.findAttribute_bump hs ht, hfind,
    Option.map_some] at hentry'
  exact bump_ne hv (Except.ok.inj hentry')

end Match

namespace ObjectStore

variable {st st' : ObjectStore} {templ : List CkAttribute}

theorem type_mem_of_mem_templateMap {p : CkUlong × Bytes} (hp : p ∈ templateMap templ) :
    ∃ a ∈ templ, a.type = p.1 := by
  have hloop : ∀ (templ : List CkAttribute) (m : List (CkUlong × Bytes)),
      p ∈ templ.foldl (fun m a => (a.type, a.value.bytes) :: m.filter (·.1 ≠ a.type)) m →
      p ∈ m ∨ ∃ a ∈ templ, a.type = p.1 := by
    intro templ
    induction templ with
    | nil => exact fun m hm => .inl hm
    | cons a templ ih =>
      intro m hm
      rcases ih _ hm with hmem | ⟨b, hb, hbt⟩
      · rcases List.mem_cons.mp hmem with rfl | hold
        · exact .inr ⟨a, List.mem_cons_self, rfl⟩
        · exact .inl (List.mem_of_mem_filter hold)
      · exact .inr ⟨b, List.mem_cons_of_mem _ hb, hbt⟩
  exact (hloop templ [] hp).resolve_left List.not_mem_nil

/-- Searches over two stores that agree up to key bytes collect the same handles when no match
depends on key bytes. -/
theorem findHandles_congr (h : st.mapObjects HsmObject.redact = st'.mapObjects HsmObject.redact)
    (hmatch : ∀ k o, st.getObject k = some o → ∀ o', o.redact = o'.redact →
      matchObject o templ = matchObject o' templ) :
    st.findHandles templ = st'.findHandles templ := by
  unfold findHandles
  by_cases hindex : useIndex templ = true
  · -- The indexed types hold no key bytes.
    rw [if_pos hindex, if_pos hindex]
    have hopen : ∀ o : HsmObject, ∀ kv ∈ templateMap templ,
        o.redact.findAttribute kv.1 = o.findAttribute kv.1 := by
      intro o kv hkv
      obtain ⟨a, ha, htype⟩ := type_mem_of_mem_templateMap hkv
      have hmem : a.type ∈ indexedTypes := by
        simp only [useIndex, Bool.and_eq_true, List.all_eq_true, decide_eq_true_eq] at hindex
        exact hindex.2 a ha
      have hdisjoint : ∀ t ∈ indexedTypes, t ∉ secretTypes := forall_mem_of_all (by decide)
      rw [HsmObject.redact, HsmObject.findAttribute_mapSecrets,
        if_neg fun hsecret => hdisjoint _ (htype ▸ hmem) hsecret.2]
    rw [← findAllByAttributes_mapObjects hopen, h, findAllByAttributes_mapObjects hopen]
  · rw [if_neg hindex, if_neg hindex]
    have hhandles : st.allHandles = st'.allHandles := by
      rw [← allHandles_mapObjects (f := HsmObject.redact), h, allHandles_mapObjects]
    rw [hhandles]
    apply List.filter_congr
    intro k _
    have hget : (st.getObject k).map HsmObject.redact = (st'.getObject k).map HsmObject.redact := by
      rw [← getObject_mapObjects, h, getObject_mapObjects]
    cases ho : st.getObject k with
    | none =>
      rw [ho, Option.map_none, eq_comm, Option.map_eq_none_iff] at hget
      rw [hget]
    | some o =>
      rw [ho, Option.map_some, eq_comm, Option.map_eq_some_iff] at hget
      obtain ⟨o', ho', hredact⟩ := hget
      rw [ho']
      exact hmatch k o ho o' hredact.symm

end ObjectStore

/-! ### States up to key bytes -/

def Session.mapObjects (f : HsmObject → HsmObject) (s : Session) : Session :=
  { s with objectStore := s.objectStore.mapObjects f }

namespace Hsm

variable {be : Backend} {hsm hsm' : Hsm} {h : CkUlong} {f g : HsmObject → HsmObject}

/-- Change the objects of all sessions in place. -/
def mapObjects (f : HsmObject → HsmObject) (hsm : Hsm) : Hsm :=
  { hsm with
    manager := { hsm.manager with
      sessions := hsm.manager.sessions.map (Session.mapObjects f) } }

/-- The states are identical except for the key bytes, not their lengths, of sensitive objects. -/
def SecretEq (hsm hsm' : Hsm) : Prop :=
  hsm.mapObjects HsmObject.redact = hsm'.mapObjects HsmObject.redact

theorem secretEq_mapObjects (hf : ∀ o, (f o).redact = o.redact) :
    SecretEq hsm (hsm.mapObjects f) := by
  have hsession (s : Session) : (s.mapObjects f).mapObjects HsmObject.redact =
      s.mapObjects HsmObject.redact := by
    simp only [Session.mapObjects, ObjectStore.mapObjects_mapObjects, hf]
  simp only [SecretEq, mapObjects, List.map_map, Function.comp_def, hsession]

theorem getSession_mapObjects :
    (hsm.mapObjects f).getSession h = (hsm.getSession h).map (Session.mapObjects f) := by
  simp only [getSession, SessionManager.getSession, mapObjects, List.find?_map]
  rfl

theorem getObject_mapObjects (k : CkUlong) :
    (hsm.mapObjects f).getObject h k = (hsm.getObject h k).map f := by
  unfold getObject store
  rw [getSession_mapObjects]
  cases hsm.getSession h with
  | none => rfl
  | some s => exact ObjectStore.getObject_mapObjects

theorem SecretEq.initialized (heq : SecretEq hsm hsm') : hsm.initialized = hsm'.initialized :=
  (congrArg Hsm.initialized heq :)

/-- A session is open in both states or in none, and agrees up to key bytes. -/
theorem SecretEq.getSession (heq : SecretEq hsm hsm') (h : CkUlong) :
    hsm.getSession h = none ∧ hsm'.getSession h = none ∨
    ∃ s s', hsm.getSession h = some s ∧ hsm'.getSession h = some s' ∧
      s.mapObjects HsmObject.redact = s'.mapObjects HsmObject.redact := by
  have hmap : (hsm.getSession h).map (Session.mapObjects HsmObject.redact) =
      (hsm'.getSession h).map (Session.mapObjects HsmObject.redact) := by
    rw [← getSession_mapObjects, heq, getSession_mapObjects]
  cases hs : hsm.getSession h with
  | none =>
    rw [hs, Option.map_none, eq_comm, Option.map_eq_none_iff] at hmap
    exact .inl ⟨rfl, hmap⟩
  | some s =>
    rw [hs, Option.map_some, eq_comm, Option.map_eq_some_iff] at hmap
    obtain ⟨s', hs', hsame⟩ := hmap
    exact .inr ⟨s, s', rfl, hs', hsame.symm⟩

theorem SecretEq.getObject (heq : SecretEq hsm hsm') (h k : CkUlong) :
    hsm.getObject h k = none ∧ hsm'.getObject h k = none ∨
    ∃ o o', hsm.getObject h k = some o ∧ hsm'.getObject h k = some o' ∧ o.redact = o'.redact := by
  have hmap : (hsm.getObject h k).map HsmObject.redact =
      (hsm'.getObject h k).map HsmObject.redact := by
    rw [← getObject_mapObjects, heq, getObject_mapObjects]
  cases ho : hsm.getObject h k with
  | none =>
    rw [ho, Option.map_none, eq_comm, Option.map_eq_none_iff] at hmap
    exact .inl ⟨rfl, hmap⟩
  | some o =>
    rw [ho, Option.map_some, eq_comm, Option.map_eq_some_iff] at hmap
    obtain ⟨o', ho', hsame⟩ := hmap
    exact .inr ⟨o, o', rfl, ho', hsame.symm⟩

/-! ### Effects on the search state -/

theorem mapObjects_setSession (s : Session) :
    (hsm.setSession s).mapObjects f = (hsm.mapObjects f).setSession (s.mapObjects f) := by
  have hlist (l : List Session) :
      (l.replaceF fun x => if x.handle = s.handle then some s else none).map
        (Session.mapObjects f) =
      (l.map (Session.mapObjects f)).replaceF fun x =>
        if x.handle = (s.mapObjects f).handle then some (s.mapObjects f) else none := by
    induction l with
    | nil => rfl
    | cons x xs ih =>
      have hx : (x.mapObjects f).handle = x.handle := rfl
      have hs : (s.mapObjects f).handle = s.handle := rfl
      by_cases hhandle : x.handle = s.handle
      · simp [List.replaceF, hx, hs, hhandle]
      · simp only [List.replaceF, List.map_cons, hx, hs, if_neg hhandle]
        rw [ih]
        rfl
  simp only [setSession, mapObjects, SessionManager.setSession, hlist]

/-- The effect changes the search state of the session only. -/
structure SearchOnly (e : Effect) : Prop where
  edit : e.edit = .keep
  events : e.events = []
  update : ∀ (f : HsmObject → HsmObject) (s : Session),
    (e.update.run s).mapObjects f = e.update.run (s.mapObjects f)

theorem mapObjects_finish {e : Effect} (he : SearchOnly e) (x : CkUlong) :
    (hsm.finish x (.ok e)).2.mapObjects f = ((hsm.mapObjects f).finish x (.ok e)).2 := by
  have hafter (s : Session) : (e.after s).mapObjects f = e.after (s.mapObjects f) := by
    have hrun : e.after s = e.update.run s := by
      rw [Effect.after, he.edit, ObjectStore.edit, ← e.update.objectStore_run s]
    have hrun' : e.after (s.mapObjects f) = e.update.run (s.mapObjects f) := by
      rw [Effect.after, he.edit, ObjectStore.edit, ← e.update.objectStore_run (s.mapObjects f)]
    rw [hrun, hrun', he.update]
  simp only [finish, getSession_mapObjects, he.events, List.foldl_nil]
  cases hsm.getSession x with
  | none => rfl
  | some s => simp only [Option.map_some, mapObjects_setSession, hafter]

/-- Two states that agree up to key bytes and take the same effect answer alike and stay so. -/
theorem SecretEq.finish (heq : SecretEq hsm hsm') (x : CkUlong) {r : Except CkRv Effect}
    (hr : ∀ e, r = .ok e → SearchOnly e) :
    (hsm.finish x r).1 = (hsm'.finish x r).1 ∧ SecretEq (hsm.finish x r).2 (hsm'.finish x r).2 := by
  cases r with
  | error rv => exact ⟨rfl, heq⟩
  | ok e =>
    refine ⟨(finish_answer e).trans (finish_answer e).symm, ?_⟩
    rw [SecretEq, mapObjects_finish (hr e rfl), mapObjects_finish (hr e rfl), heq]

/-! ### Reads -/

end Hsm

/-- The reads of the attribute interface. -/
inductive Read
  | attributes (object : CkUlong) (templ : List CkAttribute)
  | search (templ : List CkAttribute)

/-- The calls that make up a read: one `C_GetAttributeValue`, or `C_FindObjectsInit` with any
number of `C_FindObjects`. -/
def Read.Sequence (h : CkUlong) : Read → List ApiCall → Prop
  | .attributes object templ, calls =>
    ∃ env, calls = [.onSession env h (.object (.getAttributeValue object templ))]
  | .search templ, calls =>
    ∃ env rest, calls = .onSession env h (.object (.findObjectsInit templ)) :: rest ∧
      ∀ c ∈ rest, ∃ env ph n pul, c = .onSession env h (.object (.findObjects ph n pul))

/-- The read does not ask for key bytes of a sensitive object that is there: no buffer takes the
bytes of a private-key attribute, and no search compares such bytes with those of an object that
matches the template for some key bytes. -/
def Read.Safe (hsm : Hsm) (h : CkUlong) : Read → Prop
  | .attributes object templ =>
    ¬ (hsm.initialized = true ∧ ∃ o, hsm.getObject h object = some o ∧
      ∃ a ∈ templ, o.Leaks a.type a.value)
  | .search templ =>
    ¬ (hsm.initialized = true ∧ ∃ s, hsm.getSession h = some s ∧
      (s.hasFindResults || s.findActive) = false ∧ (∃ a ∈ templ, a.AsksSecret) ∧
      ∃ k o, s.objectStore.getObject k = some o ∧ o.sensitive = true ∧
        ∃ o', o'.redact = o.redact ∧ matchObject o' templ = true)

namespace Hsm

variable {be : Backend} {hsm hsm' : Hsm} {h : CkUlong} {templ : List CkAttribute} {r : Read}

/-- The read answers alike in every state that agrees with this one up to key bytes. -/
def Hidden (be : Backend) (hsm : Hsm) (h : CkUlong) (r : Read) : Prop :=
  ∀ hsm', SecretEq hsm hsm' → ∀ calls, r.Sequence h calls →
    CS.answers (api be) hsm calls = CS.answers (api be) hsm' calls

/-! #### Attributes -/

/-- What `C_GetAttributeValue` answers. -/
theorem answer_getAttributeValue (env : Env) (object : CkUlong) :
    (hsm.api be (.onSession env h (.object (.getAttributeValue object templ)))).1 =
      if hsm.initialized = false then { rv := .cryptokiNotInitialized }
      else
        match hsm.getObject h object with
        | none => { rv := .objectHandleInvalid }
        | some o =>
          { rv := readCode (templ.map fun a => o.getAttribute a.type a.value)
            entries := templ.map fun a => o.getAttribute a.type a.value } := by
  change (hsm.finish h (hsm.cGetAttributeValue h object templ)).1 = _
  cases hinit : hsm.initialized with
  | false =>
    simp only [cGetAttributeValue, checkInitialized, refuseIf, hinit, if_true, bind, Except.bind,
      finish]
  | true =>
    cases ho : hsm.getObject h object with
    | none =>
      simp only [cGetAttributeValue, checkInitialized, refuseIf, hinit, ho, orRefuse, bind,
        Except.bind, finish, Bool.true_eq_false, if_false]
    | some o =>
      simp only [cGetAttributeValue, checkInitialized, refuseIf, hinit, ho, orRefuse, bind,
        Except.bind, pure, Except.pure, finish, Bool.true_eq_false, if_false]
      cases hsm.getSession h <;> rfl

theorem hidden_attributes_iff (object : CkUlong) :
    Hidden be hsm h (.attributes object templ) ↔ (Read.attributes object templ).Safe hsm h := by
  constructor
  · -- With other key bytes the leaking entry reads differently.
    rintro hhidden ⟨hinit, o, ho, a, ha, hleak⟩
    have heq : SecretEq hsm (hsm.mapObjects (HsmObject.mapSecrets bump)) :=
      secretEq_mapObjects fun o => HsmObject.redact_mapSecrets HsmObject.length_bump
    have hanswers := hhidden _ heq _ ⟨{}, rfl⟩
    have ho' : (hsm.mapObjects (HsmObject.mapSecrets bump)).getObject h object =
        some (o.mapSecrets bump) := by
      rw [getObject_mapObjects, ho, Option.map_some]
    have hinit' : (hsm.mapObjects (HsmObject.mapSecrets bump)).initialized = true := hinit
    simp only [CS.answers_cons, CS.answers_nil, answer_getAttributeValue, hinit, hinit', ho, ho',
      Bool.true_eq_false, if_false, List.cons.injEq, and_true, Answer.mk.injEq] at hanswers
    have hentry := (List.map_inj_left.mp hanswers.2.2) a ha
    exact HsmObject.getAttribute_bump_ne hleak hentry.symm
  · rintro hsafe hsm' heq calls ⟨env, rfl⟩
    simp only [CS.answers_cons, CS.answers_nil, answer_getAttributeValue, ← heq.initialized]
    by_cases hinit : hsm.initialized = false
    · rw [if_pos hinit, if_pos hinit]
    · rcases heq.getObject h object with ⟨ho, ho'⟩ | ⟨o, o', ho, ho', hredact⟩
      · rw [ho, ho']
      · have hentries : (templ.map fun a => o.getAttribute a.type a.value) =
            templ.map fun a => o'.getAttribute a.type a.value := by
          apply List.map_congr_left
          intro a ha
          apply HsmObject.getAttribute_congr hredact
          intro hleak
          exact hsafe ⟨Bool.eq_true_of_not_eq_false hinit, o, ho, a, ha, hleak⟩
        simp only [ho, ho', hentries]

/-! #### Searches -/

theorem cFindObjects_congr (heq : SecretEq hsm hsm') (ph : Bool) (n : Nat) (pul : Bool) :
    hsm.cFindObjects h ph n pul = hsm'.cFindObjects h ph n pul := by
  unfold cFindObjects
  rcases heq.getSession h with ⟨hs, hs'⟩ | ⟨s, s', hs, hs', hsame⟩
  · rw [hs, hs']
  · have hactive : s.findActive = s'.findActive := (congrArg Session.findActive hsame :)
    have hbatch : (s.findNextBatch n).1 = (s'.findNextBatch n).1 :=
      (congrArg (fun x => (Session.findNextBatch x n).1) hsame :)
    rw [hs, hs']
    simp only [orRefuse, bind, Except.bind, hactive, hbatch]

theorem searchOnly_cFindObjects {ph : Bool} {n : Nat} {pul : Bool} {e : Effect}
    (he : hsm.cFindObjects h ph n pul = .ok e) : SearchOnly e := by
  obtain ⟨-, s, -, he⟩ := by
    simpa only [cFindObjects, refuseIf_bind_eq_ok, orRefuse_bind_eq_ok] using he
  cases he.2
  exact ⟨rfl, rfl, fun _ _ => rfl⟩

theorem cFindObjectsInit_congr (heq : SecretEq hsm hsm')
    (hhandles : ∀ s s', hsm.getSession h = some s → hsm'.getSession h = some s' →
      hsm.initialized = true → (s.hasFindResults || s.findActive) = false →
      s.objectStore.findHandles templ = s'.objectStore.findHandles templ) :
    hsm.cFindObjectsInit h templ = hsm'.cFindObjectsInit h templ := by
  unfold cFindObjectsInit checkInitialized
  rw [← heq.initialized]
  rcases heq.getSession h with ⟨hs, hs'⟩ | ⟨s, s', hs, hs', hsame⟩
  · rw [hs, hs']
  · have hidle : (s.hasFindResults || s.findActive) = (s'.hasFindResults || s'.findActive) :=
      (congrArg (fun x => Session.hasFindResults x || Session.findActive x) hsame :)
    rw [hs, hs']
    simp only [refuseIf, orRefuse, bind, Except.bind, ← hidle]
    by_cases hinit : hsm.initialized = false
    · rw [if_pos hinit]
    · by_cases hbusy : (s.hasFindResults || s.findActive) = true
      · simp only [if_neg hinit, if_pos hbusy]
      · simp only [if_neg hinit, if_neg hbusy]
        rw [hhandles s s' hs hs' (Bool.eq_true_of_not_eq_false hinit) (Bool.eq_false_of_not_eq_true hbusy)]

theorem searchOnly_cFindObjectsInit {e : Effect} (he : hsm.cFindObjectsInit h templ = .ok e) :
    SearchOnly e := by
  obtain ⟨-, s, -, he⟩ := by
    simpa only [cFindObjectsInit, checkInitialized, refuseIf_bind_eq_ok, orRefuse_bind_eq_ok]
      using he
  cases he.2
  exact ⟨rfl, rfl, fun _ _ => rfl⟩

/-- What a search that starts and one batch answer. -/
theorem answers_search {s : Session} (hinit : hsm.initialized = true)
    (hs : hsm.getSession h = some s) (hidle : (s.hasFindResults || s.findActive) = false)
    (n : Nat) :
    CS.answers (api be) hsm
        [.onSession {} h (.object (.findObjectsInit templ)),
         .onSession {} h (.object (.findObjects true n true))] =
      [{ rv := .ok },
       { rv := .ok, handles := (s.objectStore.findHandles templ).take n
         len := some ((s.objectStore.findHandles templ).take n).length }] := by
  have heffect : hsm.cFindObjectsInit h templ = .ok
      { answer := { rv := .ok }
        update := .setFindResults (s.objectStore.findHandles templ) } := by
    simp [cFindObjectsInit, checkInitialized, refuseIf, orRefuse, hinit, hs, hidle, bind,
      Except.bind, pure, Except.pure]
  have hstart : hsm.api be (.onSession {} h (.object (.findObjectsInit templ))) =
      ({ rv := .ok }, hsm.setSession (s.setFindResults (s.objectStore.findHandles templ))) := by
    change hsm.finish h (hsm.cFindObjectsInit h templ) = _
    rw [heffect]
    simp only [finish, hs]
    rfl
  have hs' : (hsm.setSession (s.setFindResults (s.objectStore.findHandles templ))).getSession h =
      some (s.setFindResults (s.objectStore.findHandles templ)) := by
    have hhandle : (s.setFindResults (s.objectStore.findHandles templ)).handle = h :=
      (SessionManager.handle_of_getSession hs :)
    exact (SessionManager.getSession_setSession hs hhandle h).trans (if_pos rfl)
  have hbatch : ((hsm.setSession (s.setFindResults (s.objectStore.findHandles templ))).api be
      (.onSession {} h (.object (.findObjects true n true)))).1 =
      { rv := .ok, handles := (s.objectStore.findHandles templ).take n
        len := some ((s.objectStore.findHandles templ).take n).length } := by
    change (Hsm.finish _ h (Hsm.cFindObjects _ h true n true)).1 = _
    simp only [cFindObjects, refuseIf, orRefuse, finish, hs', bind, Except.bind, pure, Except.pure]
    simp [Session.setFindResults, Session.findNextBatch]
  rw [CS.answers_cons, CS.answers_cons, CS.answers_nil, hstart, hbatch]

theorem useIndex_of_asksSecret {a : CkAttribute} (ha : a ∈ templ) (hask : a.AsksSecret) :
    useIndex templ = false := by
  have hdisjoint : ∀ t ∈ leakTypes, t ∉ indexedTypes := forall_mem_of_all (by decide)
  have hall : templ.all (fun a => a.type ∈ indexedTypes) = false := by
    rw [List.all_eq_false]
    exact ⟨a, ha, by simpa using hdisjoint _ hask.1⟩
  rw [useIndex, hall, Bool.and_false]

theorem mem_findHandles_mapObjects {s : Session} {k : CkUlong} {o : HsmObject}
    (hlinear : useIndex templ = false) (ho : s.objectStore.getObject k = some o)
    (f : HsmObject → HsmObject) :
    k ∈ (s.mapObjects f).objectStore.findHandles templ ↔ matchObject (f o) templ = true := by
  rw [ObjectStore.mem_findHandles_linear hlinear]
  change (∃ x, (s.objectStore.mapObjects f).getObject k = some x ∧ _) ↔ _
  rw [ObjectStore.getObject_mapObjects, ho]
  simp

/-- One batch takes all handles of a search, so hidden searches find the same handles. -/
theorem findHandles_eq_of_hidden {s : Session} (hhidden : Hidden be hsm h (.search templ))
    (hinit : hsm.initialized = true) (hs : hsm.getSession h = some s)
    (hidle : (s.hasFindResults || s.findActive) = false) {f g : HsmObject → HsmObject}
    (hf : ∀ x, (f x).redact = x.redact) (hg : ∀ x, (g x).redact = x.redact) :
    (s.mapObjects f).objectStore.findHandles templ =
      (s.mapObjects g).objectStore.findHandles templ := by
  have hstate (f : HsmObject → HsmObject) (hf : ∀ x, (f x).redact = x.redact) (n : Nat) :=
    hhidden (hsm.mapObjects f) (secretEq_mapObjects hf) _
      ⟨{}, [.onSession {} h (.object (.findObjects true n true))], rfl, by
        intro c hc
        exact ⟨{}, true, n, true, List.mem_singleton.mp hc⟩⟩
  have hsession (f : HsmObject → HsmObject) :
      (hsm.mapObjects f).getSession h = some (s.mapObjects f) := by
    rw [getSession_mapObjects, hs, Option.map_some]
  have htake (n : Nat) := (hstate f hf n).symm.trans (hstate g hg n)
  have hanswers (f : HsmObject → HsmObject) (n : Nat) :=
    @answers_search be (hsm.mapObjects f) h templ (s.mapObjects f) hinit (hsession f) hidle n
  simp only [hanswers, List.cons.injEq, Answer.mk.injEq, true_and, and_true] at htake
  generalize (s.mapObjects f).objectStore.findHandles templ = l at htake
  generalize (s.mapObjects g).objectStore.findHandles templ = l' at htake
  have hl := (htake (max l.length l'.length)).1
  rwa [List.take_of_length_le (Nat.le_max_left _ _),
    List.take_of_length_le (Nat.le_max_right _ _)] at hl

theorem safe_of_hidden_search (hhidden : Hidden be hsm h (.search templ)) :
    (Read.search templ).Safe hsm h := by
  rintro ⟨hinit, s, hs, hidle, ⟨a, ha, hask⟩, k, o, ho, hsens, o', hredact, hmatch⟩
  classical
  -- In one state the object has key bytes that match, in the other one it has not.
  let found (x : HsmObject) : HsmObject := if x = o then o' else x
  let lost (x : HsmObject) : HsmObject := (found x).mapSecrets bump
  have hfound (x : HsmObject) : (found x).redact = x.redact := by
    by_cases hx : x = o
    · subst hx
      simp only [found, if_true, hredact]
    · simp only [found, if_neg hx]
  have hlost (x : HsmObject) : (lost x).redact = x.redact :=
    (HsmObject.redact_mapSecrets HsmObject.length_bump).trans (hfound x)
  have hmem := mem_findHandles_mapObjects (useIndex_of_asksSecret ha hask) ho
  have hin : k ∈ (s.mapObjects found).objectStore.findHandles templ := by
    rw [hmem]
    simpa only [found, if_true] using hmatch
  rw [findHandles_eq_of_hidden hhidden hinit hs hidle hfound hlost, hmem] at hin
  have hsens' : o'.sensitive = true := (HsmObject.sensitive_eq hredact).trans hsens
  have hout := not_matchObject_bump hsens' ha hask hmatch
  simp only [lost, found, if_true, hout, Bool.false_eq_true] at hin

theorem cFindObjectsInit_of_safe (hsafe : (Read.search templ).Safe hsm h)
    (heq : SecretEq hsm hsm') : hsm.cFindObjectsInit h templ = hsm'.cFindObjectsInit h templ := by
  apply cFindObjectsInit_congr heq
  intro s s' hs hs' hinit hidle
  rcases heq.getSession h with ⟨hnone, -⟩ | ⟨t, t', ht, ht', hsame⟩
  · rw [hs] at hnone
    cases hnone
  obtain rfl : s = t := Option.mem_unique hs ht
  obtain rfl : s' = t' := Option.mem_unique hs' ht'
  apply ObjectStore.findHandles_congr (congrArg Session.objectStore hsame :)
  intro k o ho o' hredact
  by_cases hask : o.sensitive = true ∧ ∃ a ∈ templ, a.AsksSecret
  · -- The object matches for no key bytes at all.
    have hnever : ∀ x : HsmObject, x.redact = o.redact → matchObject x templ = false := by
      intro x hx
      by_contra hmatch
      exact hsafe ⟨hinit, s, hs, hidle, hask.2, k, o, ho, hask.1, x, hx,
        Bool.eq_true_of_not_eq_false hmatch⟩
    rw [hnever o rfl, hnever o' hredact.symm]
  · exact matchObject_congr hredact hask

/-- One batch of a search, in states that agree up to key bytes. -/
theorem findObjects_congr {env : Env} {ph pul : Bool} {n : Nat} (heq : SecretEq hsm hsm') :
    (hsm.api be (.onSession env h (.object (.findObjects ph n pul)))).1 =
        (hsm'.api be (.onSession env h (.object (.findObjects ph n pul)))).1 ∧
      SecretEq (hsm.api be (.onSession env h (.object (.findObjects ph n pul)))).2
        (hsm'.api be (.onSession env h (.object (.findObjects ph n pul)))).2 := by
  have hsame := cFindObjects_congr (h := h) heq ph n pul
  have hnext := heq.finish h (r := hsm.cFindObjects h ph n pul) fun e he =>
    searchOnly_cFindObjects he
  constructor
  · refine hnext.1.trans ?_
    rw [hsame]
    rfl
  · change SecretEq (hsm.finish h (hsm.cFindObjects h ph n pul)).2
      (hsm'.finish h (hsm'.cFindObjects h ph n pul)).2
    rw [← hsame]
    exact hnext.2

theorem hidden_search_iff : Hidden be hsm h (.search templ) ↔ (Read.search templ).Safe hsm h := by
  refine ⟨safe_of_hidden_search, ?_⟩
  rintro hsafe hsm' heq calls ⟨env, rest, rfl, hrest⟩
  have hfirst := heq.finish h (r := hsm.cFindObjectsInit h templ) fun e he =>
    searchOnly_cFindObjectsInit he
  rw [CS.answers_cons, CS.answers_cons]
  change (hsm.finish h (hsm.cFindObjectsInit h templ)).1 ::
      CS.answers _ (hsm.finish h (hsm.cFindObjectsInit h templ)).2 rest =
    (hsm'.finish h (hsm'.cFindObjectsInit h templ)).1 ::
      CS.answers _ (hsm'.finish h (hsm'.cFindObjectsInit h templ)).2 rest
  rw [← cFindObjectsInit_of_safe hsafe heq, hfirst.1]
  congr 1
  refine CS.answers_eq_of_related ?_ hfirst.2 hrest
  rintro hsm₁ hsm₂ c heq' ⟨env', ph, n, pul, rfl⟩
  exact findObjects_congr heq'

/-! #### All reads -/

/-- A read is hidden exactly when it is safe, and generated keys are among the objects whose
bytes it is about. -/
theorem hidden_iff_safe (be : Backend) (hsm : Hsm) (h : CkUlong) :
    (∀ r : Read, Hidden be hsm h r ↔ r.Safe hsm h) ∧
    ∀ (env : Env) (c : Creation) (k : CkUlong), c.Generates →
      (hsm.api be (.onSession env h c.call)).1.handles.getLast? = some k →
      ∃ o, (hsm.api be (.onSession env h c.call)).2.getObject h k = some o ∧
        o.sensitive = true := by
  constructor
  · intro r
    cases r with
    | attributes object templ => exact hidden_attributes_iff object
    | search templ => exact hidden_search_iff
  · intro env c k hc hk
    obtain ⟨b, hget, hbare⟩ := getObject_of_creation hk
    exact ⟨b.built, hget, b.sameFields.sensitive.trans (hc.sensitive hbare)⟩

/-- The module after `C_GenerateKeyPair` for an RSA pair; the private key is in the second slot. -/
def withPair : Hsm :=
  (oneSession.api .toy (.onSession {} 1
    (Creation.generateKeyPair (some ⟨ckmRsaPkcsKeyPairGen, .absent⟩) [] []).call)).2

/-- Reading the label of the private key is hidden, and the key is sensitive. -/
theorem hidden_label_withPair :
    Hidden .toy withPair 1 (.attributes (composeHandle 1 1) [⟨ckaLabel, .data [0]⟩]) ∧
      ∃ o, withPair.getObject 1 (composeHandle 1 1) = some o ∧ o.sensitive = true := by
  refine ⟨((hidden_iff_safe .toy withPair 1).1 _).mpr ?_,
    (hidden_iff_safe .toy oneSession 1).2 {} (.generateKeyPair _ [] []) _ trivial rfl⟩
  rintro ⟨-, o, -, a, ha, -, ht, -⟩
  rw [List.mem_singleton.mp ha] at ht
  revert ht
  decide

/-- Reading the private-key attribute of the generated key reveals its bytes. -/
theorem not_hidden_withPair :
    ¬ Hidden .toy withPair 1 (.attributes (composeHandle 1 1) [⟨ckaVhsmRsaPriv, .data [0]⟩]) := by
  rw [hidden_attributes_iff]
  refine not_not.mpr ⟨rfl, _, rfl, _, List.mem_singleton.mpr rfl, ?_⟩
  exact ⟨rfl, by decide, [1], [0], rfl, by decide, rfl, by decide⟩

end Hsm

end VirtualHsm
