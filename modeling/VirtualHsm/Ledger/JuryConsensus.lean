import Mathlib.Data.List.Nodup
import Mathlib.Data.List.Perm.Subperm
import VirtualHsm.Ledger.ThesisContract

/-!
# Jury consensus

A thesis that is defended should have one grade from each member of its jury and from nobody else;
one that is notarized should also have one signature from each member. The contract compares
numbers: as many grades as members, as many signatures as members.

Jurors grade once and sign once, and only while they are members. So the numbers are right as long
as the jury is not replaced by one that leaves out a juror who has graded, or, after the defence,
brings in another. The contract replaces the jury in every state.
-/

namespace VirtualHsm.ThesisContract

variable {F : Floats}

/-- Each member of the current jury has graded once and nobody else has; in a notarized record each
has signed once, and the document has its hash and signature. -/
structure ThesisPayload.Consensus (t : ThesisPayload F) : Prop where
  graded : t.status = .defended ∨ t.status = .notarized →
    (∀ m ∈ t.members, t.graders.count m = 1) ∧ ∀ g ∈ t.graders, g ∈ t.members
  notarized : t.status = .notarized →
    (∀ m ∈ t.members, t.signers.count m = 1) ∧ t.hashDocument ≠ "" ∧ t.signatureDocument ≠ ""

/-- The new jury has everyone who has graded and, after the defence, nobody else. -/
def KeepsJury (t : ThesisPayload F) (jury : List String) : Prop :=
  t.graders ⊆ jury ∧ (t.status ≠ .draft → jury ⊆ t.graders)

/-- If the transaction replaces a jury, then by one that keeps it. -/
def JuryKept (w : World F) (a : Tx × Call) : Prop :=
  match a.2 with
  | .updateAdministrative id (.ok adm) => ∀ t, w.get id = some t → KeepsJury t adm.juryMembers
  | _ => True

/-! ### The invariant -/

structure ThesisPayload.Orderly (t : ThesisPayload F) : Prop where
  graders_nodup : t.graders.Nodup
  signers_nodup : t.signers.Nodup
  graders_sub : t.graders ⊆ t.members
  signers_sub : t.signers ⊆ t.members
  unsigned : t.status = .draft → t.signers = []
  members_sub : t.status ≠ .draft → t.members ⊆ t.graders
  notarized : t.status = .notarized →
    t.members ⊆ t.signers ∧ t.hashDocument ≠ "" ∧ t.signatureDocument ≠ ""

theorem subset_of_length_eq {entries members : List String} (hnodup : entries.Nodup)
    (hsub : entries ⊆ members) (hlen : entries.length = members.length) : members ⊆ entries :=
  ((List.subperm_of_subset hnodup hsub).perm_of_length_le (Nat.le_of_eq hlen.symm)).symm.subset

namespace ThesisPayload

variable {t t' : ThesisPayload F}

theorem Orderly.of_fresh (h : Fresh t) : t.Orderly := by
  obtain ⟨id, student, adm, createdBy, createdAt, rfl⟩ := h
  exact
    { graders_nodup := List.nodup_nil
      signers_nodup := List.nodup_nil
      graders_sub := List.nil_subset _
      signers_sub := List.nil_subset _
      unsigned := fun _ => rfl
      members_sub := fun h => absurd rfl h
      notarized := fun h => nomatch h }

/-- The count decides: when the grades are all from members, grading is closed only after every
member has graded. -/
theorem Orderly.closeGrading (h : t.Orderly) : t.closeGrading.Orderly := by
  unfold ThesisPayload.closeGrading
  split_ifs with hlen
  · have hall : t.members ⊆ t.graders := by
      apply subset_of_length_eq h.graders_nodup h.graders_sub
      rw [graders, List.length_map, hlen]
    exact
      { h with
        unsigned := fun hstatus => nomatch hstatus
        members_sub := fun _ => hall
        notarized := fun hstatus => nomatch hstatus }
  · exact h

theorem Orderly.tryFinalizeNotarization (h : t.Orderly) : t.tryFinalizeNotarization.Orderly := by
  unfold ThesisPayload.tryFinalizeNotarization
  split_ifs with hready
  · obtain ⟨hdefended, -, hhash, hsignature, hlen⟩ := hready
    have hall : t.members ⊆ t.signers := by
      apply subset_of_length_eq h.signers_nodup h.signers_sub
      rw [signers, List.length_map, hlen]
    have hopen : t.status ≠ .draft := by
      rw [hdefended]
      decide
    exact
      { h with
        unsigned := fun hstatus => nomatch hstatus
        members_sub := fun _ => h.members_sub hopen
        notarized := fun _ => ⟨hall, hhash, hsignature⟩ }
  · exact h

theorem nodup_append_entry {entries : List String} {entry : String} (hnodup : entries.Nodup)
    (hfresh : entry ∉ entries) : (entries ++ [entry]).Nodup :=
  List.concat_eq_append ▸ hnodup.concat hfresh

theorem append_entry_subset {entries members : List String} {entry : String}
    (hsub : entries ⊆ members) (hmember : entry ∈ members) : entries ++ [entry] ⊆ members :=
  List.append_subset.mpr ⟨hsub, List.cons_subset.mpr ⟨hmember, List.nil_subset _⟩⟩

/-- One transaction on a record. Only a new jury needs an assumption. -/
theorem Orderly.moves {tx : Tx} {call : Call} (h : t.Orderly) (hmoves : Moves tx call t t')
    (hkept : ∀ adm, call = .updateAdministrative t.thesisId (.ok adm) →
      KeepsJury t adm.juryMembers) : t'.Orderly := by
  cases hmoves with
  | graded g hdraft hmember hfresh =>
    apply Orderly.closeGrading
    exact
      { h with
        graders_nodup := by
          rw [graders_append]
          exact nodup_append_entry h.graders_nodup hfresh
        graders_sub := by
          rw [graders_append]
          exact append_entry_subset h.graders_sub hmember
        members_sub := fun hstatus => absurd hdraft hstatus
        notarized := fun hstatus => nomatch hdraft.symm.trans hstatus }
  | signed s hdefended hmember _ hfresh =>
    apply Orderly.tryFinalizeNotarization
    exact
      { h with
        signers_nodup := by
          rw [signers_append]
          exact nodup_append_entry h.signers_nodup hfresh
        signers_sub := by
          rw [signers_append]
          exact append_entry_subset h.signers_sub hmember
        unsigned := fun hstatus => nomatch hdefended.symm.trans hstatus
        notarized := fun hstatus => nomatch hdefended.symm.trans hstatus }
  | documented hdefended =>
    apply Orderly.tryFinalizeNotarization
    exact
      { h with
        notarized := fun hstatus => nomatch hdefended.symm.trans hstatus }
  | administered adm updatedAt =>
    obtain ⟨hgraders, hothers⟩ := hkept adm rfl
    -- Signatures exist only after the defence, when the jury is the same as before.
    have hsigners : t.signers ⊆ adm.juryMembers := by
      by_cases hdraft : t.status = .draft
      · rw [h.unsigned hdraft]
        exact List.nil_subset _
      · exact List.Subset.trans (List.Subset.trans h.signers_sub (h.members_sub hdraft)) hgraders
    exact
      { h with
        graders_sub := hgraders
        signers_sub := hsigners
        members_sub := hothers
        notarized := fun hstatus => by
          have hopen : t.status ≠ .draft := fun hdraft => nomatch hdraft.symm.trans hstatus
          obtain ⟨hall, hdocument⟩ := h.notarized hstatus
          exact ⟨List.Subset.trans (List.Subset.trans (hothers hopen) h.graders_sub) hall, hdocument⟩ }

theorem Orderly.consensus (h : t.Orderly) : t.Consensus where
  graded := by
    intro hstatus
    have hopen : t.status ≠ .draft := by
      rcases hstatus with hstatus | hstatus <;> rw [hstatus] <;> decide
    refine ⟨fun m hm => ?_, fun g hg => h.graders_sub hg⟩
    exact List.count_eq_one_of_mem h.graders_nodup (h.members_sub hopen hm)
  notarized := by
    intro hstatus
    obtain ⟨hall, hdocument⟩ := h.notarized hstatus
    exact ⟨fun m hm => List.count_eq_one_of_mem h.signers_nodup (hall hm), hdocument⟩

end ThesisPayload

/-! ### Runs -/

/-- All records on the ledger are orderly. -/
def World.Orderly (w : World F) : Prop := ∀ id t, w.get id = some t → t.Orderly

theorem World.Orderly.step {w : World F} {a : Tx × Call} (hw : w.Orderly) (hkept : JuryKept w a) :
    (step w a).2.Orderly := by
  obtain ⟨tx, call⟩ := a
  intro id t' hget'
  rcases get_step w tx call id with
    hsame | ⟨-, hnone⟩ | ⟨t, -, hfresh, hnew⟩ | ⟨t, u, w', hget, rfl, -, hmoves, hmoved⟩
  · exact hw id t' (hsame ▸ hget')
  · rw [hnone] at hget'
    cases hget'
  · obtain rfl := Option.mem_unique hnew hget'
    exact .of_fresh hfresh
  · obtain rfl := Option.mem_unique hmoved hget'
    apply (hw _ t hget).moves hmoves
    rintro adm rfl
    exact hkept t hget

/-- A new jury that the record's grades do not fit breaks the consensus of a defended record. -/
theorem not_consensus_of_not_keepsJury {t : ThesisPayload F} {adm : AdministrativeInfo}
    (hstatus : t.status = .defended ∨ t.status = .notarized) (hkept : ¬ KeepsJury t adm.juryMembers)
    (updatedAt : Int) : ¬ (t.setAdministrative adm updatedAt).Consensus := by
  intro hconsensus
  obtain ⟨honce, hmembers⟩ := hconsensus.graded hstatus
  refine hkept ⟨hmembers, fun _ m hm => ?_⟩
  have hcount : t.graders.count m = 1 := honce m hm
  exact List.count_pos_iff.mp (hcount ▸ Nat.one_pos)

/-- In a run that replaces juries only by juries that keep them, there is consensus in every state.
After such a run, to replace the jury of a defended or notarized record by any other breaks it. -/
theorem consensus_of_juryKept {calls : List (Tx × Call)}
    (hkept : CS.Guarded step JuryKept (World.empty : World F) calls) :
    (∀ done rest, calls = done ++ rest → ∀ id t,
      (CS.run step (World.empty : World F) done).get id = some t → t.Consensus) ∧
    ∀ tx id adm w' t, submit (CS.run step (World.empty : World F) calls) tx
        (.updateAdministrative id (.ok adm)) = .ok w' →
      (CS.run step (World.empty : World F) calls).get id = some t →
      t.status = .defended ∨ t.status = .notarized → ¬ KeepsJury t adm.juryMembers →
      ∃ t', w'.get id = some t' ∧ ¬ t'.Consensus := by
  constructor
  · intro done rest hcalls id t hget
    subst hcalls
    have hrun : (CS.run step (World.empty : World F) done).Orderly :=
      (CS.guarded_append.mp hkept).1.invariant (fun _ _ hw hok => hw.step hok)
        (fun _ _ h => nomatch h)
    exact (hrun id t hget).consensus
  · intro tx id adm w' t hsubmit hget hstatus hjury
    obtain ⟨_, -, h⟩ := bind_eq_ok.mp hsubmit
    obtain ⟨found, hfound, h⟩ := bind_eq_ok.mp h
    obtain rfl : t = found := Option.some.inj (hget.symm.trans (getThesis_eq_ok hfound))
    obtain ⟨adm', hadm, h⟩ := bind_eq_ok.mp h
    obtain rfl : adm = adm' := Except.ok.inj (wrap_eq_ok hadm)
    obtain ⟨updatedAt, -, h⟩ := bind_eq_ok.mp h
    refine ⟨t.setAdministrative adm updatedAt, ?_,
      not_consensus_of_not_keepsJury hstatus hjury updatedAt⟩
    rw [putThesis_eq_ok h, ← World.keyed _ id t hget]
    exact Function.update_self ..

/-! ### A jury of one -/

/-- Natural numbers instead of floating-point numbers, for runs on fixed inputs. -/
def Floats.toy : Floats where
  Val := Nat
  parseFloat _ := .ok 10
  isNaN _ := false
  isInf _ := false
  lt a b := a < b
  ofNat n := n
  add a b := a + b
  div a b := a / b
  format n := toString n
  formatFixed2 n := toString n ++ ".00"

/-- A thesis with one juror, who grades it. -/
def defence : List (Tx × Call) :=
  [({ client := .ok "admin" }, .createThesis "t" "s" (.ok ⟨["a"]⟩) "admin"),
   ({ client := .ok "a" }, .submitJuryGrade "t" "a" "10" "")]

/-- The juror signs, the document is sealed, and an update leaves the jury as it is. -/
def sealing : List (Tx × Call) :=
  [({ client := .ok "a" }, .signPv "t" "a" "h" "sig"),
   ({ client := .ok "admin" }, .notarizeDocument "t" "d" "s"),
   ({ client := .ok "admin" }, .updateAdministrative "t" (.ok ⟨["a"]⟩))]

theorem consensus_sealing :
    ∃ t, (CS.run step (World.empty : World .toy) (defence ++ sealing)).get "t" = some t ∧
      t.status = .notarized ∧ t.Consensus := by
  have hkept : CS.Guarded step JuryKept (World.empty : World .toy) (defence ++ sealing) := by
    refine ⟨trivial, trivial, trivial, trivial, ?_, trivial⟩
    rintro t ⟨⟩
    exact ⟨List.Subset.refl _, fun _ => List.Subset.refl _⟩
  exact ⟨_, rfl, rfl, (consensus_of_juryKept hkept).1 _ [] (List.append_nil _).symm "t" _ rfl⟩

/-- The thesis is defended, then its jury is replaced by another juror: it stays defended without
a grade from its jury. -/
theorem not_consensus_replaced :
    ∃ t, (CS.run step (World.empty : World .toy) (defence ++
        [({ client := .ok "admin" }, .updateAdministrative "t" (.ok ⟨["b"]⟩))])).get "t" = some t ∧
      ¬ t.Consensus := by
  refine ⟨_, rfl, fun hconsensus => ?_⟩
  have hmember := (hconsensus.graded (.inl rfl)).2 "a" List.mem_cons_self
  exact absurd hmember (by decide)

end VirtualHsm.ThesisContract
