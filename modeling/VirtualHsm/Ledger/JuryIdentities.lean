import VirtualHsm.Ledger.JuryConsensus

/-!
# Who completes a thesis

A thesis with a jury of at least two should take two clients: two that grade it, and two that sign
its minutes. The contract counts jurors, and the juror of a grade or a signature is an argument of
the transaction. It requires an authenticated client and, for a grade, records it; it does not
compare it with the juror. So one client can grade and sign for the whole jury.
-/

namespace VirtualHsm.ThesisContract

variable {F : Floats}

/-! ### Transactions of a client -/

/-- The client grades the thesis, for whichever juror. -/
def GradedBy (id client : String) (w : World F) (a : Tx × Call) : Prop :=
  clientID a.1 = .ok client ∧
    (∃ juror grade comment, a.2 = .submitJuryGrade id juror grade comment) ∧
    ∃ w', submit w a.1 a.2 = .ok w'

/-- The client signs the minutes, for whichever juror. -/
def SignedBy (id client : String) (w : World F) (a : Tx × Call) : Prop :=
  clientID a.1 = .ok client ∧
    (∃ juror hashPv signature, a.2 = .signPv id juror hashPv signature) ∧
    ∃ w', submit w a.1 a.2 = .ok w'

/-- Two different clients made transactions of the given kind. -/
def TwoClients (kind : String → World F → Tx × Call → Prop) (w : World F)
    (calls : List (Tx × Call)) : Prop :=
  ∃ c c', c ≠ c' ∧ CS.Occurs step (kind c) w calls ∧ CS.Occurs step (kind c') w calls

/-- When the thesis is defended, two clients have graded it since its creation; when it is
notarized, two clients have signed its minutes as well. -/
structure SharedWork (id : String) (created : World F) (calls : List (Tx × Call)) : Prop where
  defended : ∀ t, (CS.run step created calls).get id = some t →
    t.status = .defended ∨ t.status = .notarized → TwoClients (GradedBy id) created calls
  notarized : ∀ t, (CS.run step created calls).get id = some t →
    t.status = .notarized → TwoClients (SignedBy id) created calls

/-- The thesis has the given jury after the transaction. -/
def JuryUnchanged (id : String) (jury : List String) (w : World F) (a : Tx × Call) : Prop :=
  ∀ t, (step w a).2.get id = some t → t.members = jury

/-- A transaction that grades or signs for a juror comes from the client of that juror. -/
def OwnHand (owner : String → String) (id : String) (a : Tx × Call) : Prop :=
  match a.2 with
  | .submitJuryGrade thesisId juror _ _ =>
    thesisId = id → ∀ client, clientID a.1 = .ok client → client = owner juror
  | .signPv thesisId juror _ _ =>
    thesisId = id → ∀ client, clientID a.1 = .ok client → client = owner juror
  | _ => True

/-! ### Attribution -/

/-- The record is orderly, has the given jury, and each juror in it has a transaction of their own
client behind it. -/
structure Attributed (owner : String → String) (jury : List String) (created : World F)
    (calls : List (Tx × Call)) (t : ThesisPayload F) : Prop where
  orderly : t.Orderly
  members : t.members = jury
  graded : ∀ j ∈ t.graders, CS.Occurs step (GradedBy t.thesisId (owner j)) created calls
  signed : ∀ j ∈ t.signers, CS.Occurs step (SignedBy t.thesisId (owner j)) created calls

section Attributed

variable {owner : String → String} {jury : List String} {created : World F}
  {calls : List (Tx × Call)} {t : ThesisPayload F}

theorem Attributed.of_fresh (h : Fresh t) (hjury : t.members = jury) :
    Attributed owner jury created calls t := by
  have horderly := ThesisPayload.Orderly.of_fresh h
  obtain ⟨id, student, adm, createdBy, createdAt, rfl⟩ := h
  exact ⟨horderly, hjury, fun _ hj => absurd hj List.not_mem_nil,
    fun _ hj => absurd hj List.not_mem_nil⟩

theorem Attributed.append (h : Attributed owner jury created calls t) (a : Tx × Call) :
    Attributed owner jury created (calls ++ [a]) t :=
  ⟨h.orderly, h.members, fun j hj => (h.graded j hj).append_right [a],
    fun j hj => (h.signed j hj).append_right [a]⟩

theorem ThesisPayload.Orderly.keepsJury (h : t.Orderly) : KeepsJury t t.members :=
  ⟨h.graders_sub, h.members_sub⟩

/-- One transaction on the record. -/
theorem Attributed.moves {tx : Tx} {call : Call} {t' : ThesisPayload F} {w' : World F}
    (h : Attributed owner jury created calls t)
    (hsubmit : submit (CS.run step created calls) tx call = .ok w') (hmoves : Moves tx call t t')
    (hown : OwnHand owner t.thesisId (tx, call)) (hjury : t'.members = jury) :
    Attributed owner jury created (calls ++ [(tx, call)]) t' := by
  have hid := hmoves.thesisId_eq
  refine ⟨?_, hjury, ?_, ?_⟩
  · apply h.orderly.moves hmoves
    intro adm hcall
    -- The new jury is the record's jury afterwards, which is the one it had.
    have hsame : adm.juryMembers = t.members :=
      ((hmoves.members_eq hcall).symm.trans hjury).trans h.members.symm
    exact hsame ▸ h.orderly.keepsJury
  · intro j hj
    rw [hid]
    rcases hmoves.graders_cases with heq | ⟨juror, grade, comment, client, rfl, hclient, heq⟩
    · exact (h.graded j (heq ▸ hj)).append_right _
    · rw [heq, List.mem_append, List.mem_singleton] at hj
      rcases hj with hold | rfl
      · exact (h.graded j hold).append_right _
      · apply CS.occurs_last
        obtain rfl : client = owner j := hown rfl client hclient
        exact ⟨hclient, ⟨j, grade, comment, rfl⟩, w', hsubmit⟩
  · intro j hj
    rw [hid]
    rcases hmoves.signers_cases with heq | ⟨juror, hashPv, signature, client, rfl, hclient, heq⟩
    · exact (h.signed j (heq ▸ hj)).append_right _
    · rw [heq, List.mem_append, List.mem_singleton] at hj
      rcases hj with hold | rfl
      · exact (h.signed j hold).append_right _
      · apply CS.occurs_last
        obtain rfl : client = owner j := hown rfl client hclient
        exact ⟨hclient, ⟨j, hashPv, signature, rfl⟩, w', hsubmit⟩

/-- One transaction on the ledger. -/
theorem Attributed.step {id : String} {a : Tx × Call}
    (h : ∀ t, (CS.run step created calls).get id = some t → Attributed owner jury created calls t)
    (hjury : JuryUnchanged id jury (CS.run step created calls) a) (hown : OwnHand owner id a) :
    ∀ t, (ThesisContract.step (CS.run ThesisContract.step created calls) a).2.get id = some t →
      Attributed owner jury created (calls ++ [a]) t := by
  obtain ⟨tx, call⟩ := a
  intro t' hget'
  have hmembers := hjury t' hget'
  rcases get_step (CS.run ThesisContract.step created calls) tx call id with
    hsame | ⟨-, hnone⟩ | ⟨t, -, hfresh, hnew⟩ | ⟨t, u, w', hget, rfl, hsubmit, hmoves, hmoved⟩
  · exact (h t' (hsame ▸ hget')).append _
  · rw [hnone] at hget'
    cases hget'
  · obtain rfl := Option.mem_unique hnew hget'
    exact .of_fresh hfresh hmembers
  · obtain rfl := Option.mem_unique hmoved hget'
    exact (h t hget).moves hsubmit hmoves hown hmembers

/-- Two jurors who have both made a transaction through their own clients are two clients. -/
theorem twoClients_of_members {kind : String → World F → Tx × Call → Prop} {a b : String}
    (ha : CS.Occurs ThesisContract.step (kind (owner a)) created calls)
    (hb : CS.Occurs ThesisContract.step (kind (owner b)) created calls)
    (hne : owner a ≠ owner b) : TwoClients kind created calls :=
  ⟨owner a, owner b, hne, ha, hb⟩

end Attributed

/-- What the ledger holds under an identifier that was just created. -/
theorem get_createThesis {tx : Tx} {w created : World F} {id student createdBy : String}
    {adm : AdministrativeInfo}
    (h : submit w tx (.createThesis id student (.ok adm) createdBy) = .ok created) :
    ∃ t, created.get id = some t ∧ Fresh t ∧ t.members = adm.juryMembers := by
  obtain ⟨found, -, h⟩ := bind_eq_ok.mp h
  obtain ⟨-, h⟩ := require_bind_eq_ok.mp h
  obtain ⟨adm', hadm, h⟩ := bind_eq_ok.mp h
  obtain rfl : adm = adm' := Except.ok.inj (wrap_eq_ok hadm)
  obtain ⟨createdAt, -, h⟩ := bind_eq_ok.mp h
  rw [putThesis_eq_ok h]
  refine ⟨_, (World.get_put _ _ id).trans (if_pos rfl), ?_, rfl⟩
  exact ⟨id, student, adm, createdBy, createdAt, rfl⟩

/-- A thesis is created with two different jury members and keeps its jury. If the members have
different clients and every transaction that grades or signs for a member comes from the member's
client, then the thesis is the work of two clients. -/
theorem sharedWork_of_ownHand {owner : String → String} {before after : List (Tx × Call)} {tx : Tx}
    {id student createdBy : String} {adm : AdministrativeInfo} {created : World F}
    (hcreate : submit (CS.run step (World.empty : World F) before) tx
      (.createThesis id student (.ok adm) createdBy) = .ok created)
    (hjury : ∃ a ∈ adm.juryMembers, ∃ b ∈ adm.juryMembers, a ≠ b)
    (howner : ∀ a ∈ adm.juryMembers, ∀ b ∈ adm.juryMembers, a ≠ b → owner a ≠ owner b)
    (hafter : CS.Guarded step
      (fun w a => JuryUnchanged id adm.juryMembers w a ∧ OwnHand owner id a) created after) :
    SharedWork id created after := by
  have hattributed : ∀ t, (CS.run step created after).get id = some t →
      Attributed owner adm.juryMembers created after t := by
    refine hafter.history (fun calls w => ∀ t, w.get id = some t →
      Attributed owner adm.juryMembers created calls t) ?_ ?_
    · intro done a h hok
      exact Attributed.step h hok.1 hok.2
    · intro t hget
      obtain ⟨t₀, hget₀, hfresh, hmembers⟩ := get_createThesis hcreate
      obtain rfl := Option.mem_unique hget₀ hget
      exact .of_fresh hfresh hmembers
  obtain ⟨a, ha, b, hb, hne⟩ := hjury
  have hclients := howner a ha b hb hne
  constructor
  · intro t hget hstatus
    have h := hattributed t hget
    obtain rfl := World.keyed _ id t hget
    have hopen : t.status ≠ .draft := by
      rcases hstatus with hstatus | hstatus <;> rw [hstatus] <;> decide
    have hall := h.members ▸ h.orderly.members_sub hopen
    exact twoClients_of_members (h.graded a (hall ha)) (h.graded b (hall hb)) hclients
  · intro t hget hstatus
    have h := hattributed t hget
    obtain rfl := World.keyed _ id t hget
    have hall := h.members ▸ (h.orderly.notarized hstatus).1
    exact twoClients_of_members (h.signed a (hall ha)) (h.signed b (hall hb)) hclients

/-! ### A jury of two -/

/-- The ledger with one thesis, whose jury has two members. -/
def twoJurors : World .toy :=
  World.empty.put
    { thesisId := "t", studentId := "s", administrative := some ⟨["a", "b"]⟩, createdBy := "admin" }

/-- Grades and signatures for both members; `client` tells the client of each. -/
def proceedings (client : String → String) : List (Tx × Call) :=
  [({ client := .ok (client "a") }, .submitJuryGrade "t" "a" "10" ""),
   ({ client := .ok (client "b") }, .submitJuryGrade "t" "b" "10" ""),
   ({ client := .ok (client "a") }, .signPv "t" "a" "h" "sig"),
   ({ client := .ok (client "b") }, .signPv "t" "b" "h" "sig"),
   ({}, .notarizeDocument "t" "d" "s")]

/-- The members act for themselves. -/
theorem sharedWork_proceedings :
    SharedWork "t" twoJurors (proceedings fun juror => juror) ∧
      ∃ t, (CS.run step twoJurors (proceedings fun juror => juror)).get "t" = some t ∧
        t.status = .notarized := by
  refine ⟨?_, _, rfl, rfl⟩
  refine @sharedWork_of_ownHand .toy id [] _ {} "t" "s" "admin" ⟨["a", "b"]⟩ twoJurors rfl ?_ ?_ ?_
  · exact ⟨"a", List.mem_cons_self, "b", List.mem_cons_of_mem _ List.mem_cons_self, by decide⟩
  · exact fun _ _ _ _ hne => hne
  · refine ⟨⟨?_, ?_⟩, ⟨?_, ?_⟩, ⟨?_, ?_⟩, ⟨?_, ?_⟩, ⟨?_, trivial⟩, trivial⟩
    all_goals first
      | exact fun _ _ hclient => (Except.ok.inj hclient).symm
      | (rintro t ⟨⟩; rfl)

/-- One client acts for both: the thesis is notarized, its jury never changed, and neither its
grades nor its signatures come from two clients. -/
theorem not_sharedWork_alone :
    submit (CS.run step (World.empty : World .toy) []) {}
        (.createThesis "t" "s" (.ok ⟨["a", "b"]⟩) "admin") = .ok twoJurors ∧
      CS.Guarded step (JuryUnchanged "t" ["a", "b"]) twoJurors (proceedings fun _ => "x") ∧
      (∃ t, (CS.run step twoJurors (proceedings fun _ => "x")).get "t" = some t ∧
        t.status = .notarized) ∧
      ¬ TwoClients (GradedBy "t") twoJurors (proceedings fun _ => "x") ∧
      ¬ TwoClients (SignedBy "t") twoJurors (proceedings fun _ => "x") := by
  -- Every grade and every signature is a transaction of the same client.
  have hclient : ∀ a ∈ proceedings fun _ => "x", ∀ c, clientID a.1 = .ok c → c = "x" := by
    intro a ha c hc
    simp only [proceedings, List.mem_cons, List.not_mem_nil, or_false] at ha
    rcases ha with rfl | rfl | rfl | rfl | rfl
    all_goals cases hc
    all_goals rfl
  have hgraded (c : String)
      (h : CS.Occurs step (GradedBy "t" c) twoJurors (proceedings fun _ => "x")) : c = "x" := by
    obtain ⟨a, ha, w, hc, -⟩ := h.exists_mem
    exact hclient a ha c hc
  have hsigned (c : String)
      (h : CS.Occurs step (SignedBy "t" c) twoJurors (proceedings fun _ => "x")) : c = "x" := by
    obtain ⟨a, ha, w, hc, -⟩ := h.exists_mem
    exact hclient a ha c hc
  refine ⟨rfl, ⟨?_, ?_, ?_, ?_, ?_, trivial⟩, ⟨_, rfl, rfl⟩, ?_, ?_⟩
  · rintro t ⟨⟩; rfl
  · rintro t ⟨⟩; rfl
  · rintro t ⟨⟩; rfl
  · rintro t ⟨⟩; rfl
  · rintro t ⟨⟩; rfl
  · rintro ⟨c, c', hne, hc, hc'⟩
    exact hne ((hgraded c hc).trans (hgraded c' hc').symm)
  · rintro ⟨c, c', hne, hc, hc'⟩
    exact hne ((hsigned c hc).trans (hsigned c' hc').symm)

end VirtualHsm.ThesisContract
