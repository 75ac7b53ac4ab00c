import VirtualHsm.Ledger.JuryIdentities

/-!
# The life of a thesis record

Between its creation and its deletion a record only moves forward: what is decided stays decided,
and entries of jurors are added, never removed.

The minutes are meant to have one hash, which the first signer fixes. The contract takes the empty
text for a hash that nobody has fixed yet, and accepts it as an argument: after a signature over the
empty hash the next signer fixes another one.
-/

namespace VirtualHsm.ThesisContract

variable {F : Floats}

/-! ### Moving forward -/

/-- The place of a status in the life of a thesis. -/
def ThesisStatus.rank : ThesisStatus → Nat
  | draft => 0
  | defended => 1
  | notarized => 2
  | archived => 3

namespace ThesisPayload

/-- A later state of a record: the status is not an earlier one, grades are frozen from the defence
on, the minutes and the document from the notarization on, and no entry is lost. -/
structure Advances (t t' : ThesisPayload F) : Prop where
  status : t.status.rank ≤ t'.status.rank
  defended : ThesisStatus.defended.rank ≤ t.status.rank →
    t'.thesisGrade = t.thesisGrade ∧ t'.juryGrades = t.juryGrades
  notarized : ThesisStatus.notarized.rank ≤ t.status.rank →
    t'.pvSignatures = t.pvSignatures ∧ t'.hashPv = t.hashPv ∧
      t'.hashDocument = t.hashDocument ∧ t'.signatureDocument = t.signatureDocument
  grades : t.juryGrades <+: t'.juryGrades
  signatures : t.pvSignatures <+: t'.pvSignatures

/-- No juror has two grades or two signatures. -/
structure Distinct (t : ThesisPayload F) : Prop where
  graders : t.graders.Nodup
  signers : t.signers.Nodup

variable {t t' t'' : ThesisPayload F}

theorem Advances.refl (t : ThesisPayload F) : t.Advances t :=
  ⟨Nat.le_refl _, fun _ => ⟨rfl, rfl⟩, fun _ => ⟨rfl, rfl, rfl, rfl⟩, List.prefix_rfl,
    List.prefix_rfl⟩

theorem Advances.trans (h : t.Advances t') (h' : t'.Advances t'') : t.Advances t'' where
  status := Nat.le_trans h.status h'.status
  defended hstatus := by
    obtain ⟨hgrade, hgrades⟩ := h.defended hstatus
    obtain ⟨hgrade', hgrades'⟩ := h'.defended (Nat.le_trans hstatus h.status)
    exact ⟨hgrade'.trans hgrade, hgrades'.trans hgrades⟩
  notarized hstatus := by
    obtain ⟨hpv, hhash, hdocument, hsignature⟩ := h.notarized hstatus
    obtain ⟨hpv', hhash', hdocument', hsignature'⟩ := h'.notarized (Nat.le_trans hstatus h.status)
    exact ⟨hpv'.trans hpv, hhash'.trans hhash, hdocument'.trans hdocument,
      hsignature'.trans hsignature⟩
  grades := h.grades.trans h'.grades
  signatures := h.signatures.trans h'.signatures

theorem not_le_rank {s : ThesisStatus} {k : Nat} (h : t.status = s) (hlt : s.rank < k) :
    ¬ k ≤ t.status.rank := by
  rw [h]
  exact Nat.not_le.mpr hlt

/-- Sealing changes nothing but the status. -/
theorem advances_tryFinalizeNotarization (t : ThesisPayload F) :
    t.Advances t.tryFinalizeNotarization := by
  unfold tryFinalizeNotarization
  split_ifs with hready
  · have hstatus : t.status.rank ≤ ThesisStatus.notarized.rank := by
      rw [hready.1]
      decide
    exact { Advances.refl t with status := hstatus }
  · exact .refl t

theorem advances_closeGrading (hdraft : t.status = .draft) : t.Advances t.closeGrading := by
  unfold closeGrading
  split_ifs
  · exact
      { status := hdraft ▸ Nat.zero_le _
        defended := fun h => absurd h (not_le_rank hdraft (by decide))
        notarized := fun h => absurd h (not_le_rank hdraft (by decide))
        grades := List.prefix_rfl
        signatures := List.prefix_rfl }
  · exact .refl t

end ThesisPayload

section Moves

variable {tx : Tx} {call : Call} {t t' : ThesisPayload F}

open ThesisPayload

theorem Moves.advances (h : Moves tx call t t') : t.Advances t' := by
  cases h with
  | graded g hdraft =>
    -- A draft has no defence yet, so nothing is fixed that a grade could change.
    have hadd : t.Advances { t with juryGrades := t.juryGrades ++ [g] } :=
      { Advances.refl t with
        defended := fun h => absurd h (not_le_rank hdraft (by decide))
        grades := List.prefix_append _ _ }
    exact hadd.trans (advances_closeGrading hdraft)
  | @signed _ hashPv _ s hdefended =>
    have hadd : t.Advances
        { t with
          hashPv := if t.hashPv = "" then hashPv else t.hashPv
          pvSignatures := t.pvSignatures ++ [s] } :=
      { Advances.refl t with
        -- The hash can still change: it is fixed from the notarization on.
        notarized := fun h => absurd h (not_le_rank hdefended (by decide))
        signatures := List.prefix_append _ _ }
    exact hadd.trans (advances_tryFinalizeNotarization _)
  | @documented _ hash signature hdefended =>
    have hset : t.Advances { t with hashDocument := hash, signatureDocument := signature } :=
      { Advances.refl t with
        notarized := fun h => absurd h (not_le_rank hdefended (by decide)) }
    exact hset.trans (advances_tryFinalizeNotarization _)
  | administered adm updatedAt => exact { Advances.refl t with }

theorem Moves.distinct (h : Moves tx call t t') (hdistinct : t.Distinct) : t'.Distinct := by
  cases h with
  | graded g _ _ hfresh =>
    constructor
    · rw [addGrade, graders_closeGrading, graders_append]
      exact nodup_append_entry hdistinct.graders hfresh
    · rw [addGrade, signers_closeGrading]
      exact hdistinct.signers
  | signed s _ _ _ hfresh =>
    constructor
    · rw [addSignature, graders_tryFinalizeNotarization]
      exact hdistinct.graders
    · rw [addSignature, signers_tryFinalizeNotarization, signers_append]
      exact nodup_append_entry hdistinct.signers hfresh
  | documented =>
    constructor
    · rw [setDocument, graders_tryFinalizeNotarization]
      exact hdistinct.graders
    · rw [setDocument, signers_tryFinalizeNotarization]
      exact hdistinct.signers
  | administered adm updatedAt => exact ⟨hdistinct.graders, hdistinct.signers⟩

theorem Fresh.distinct (h : Fresh t) : t.Distinct := by
  obtain ⟨id, student, adm, createdBy, createdAt, rfl⟩ := h
  exact ⟨List.nodup_nil, List.nodup_nil⟩

end Moves

theorem advances_step {w : World F} {a : Tx × Call} {id : String} {t : ThesisPayload F}
    (hget : w.get id = some t) (hkept : ¬ Deletes id w a) :
    ∃ t', (step w a).2.get id = some t' ∧ t.Advances t' := by
  obtain ⟨tx, call⟩ := a
  rcases get_step w tx call id with
    hsame | ⟨hdeletes, -⟩ | ⟨_, hnone, -⟩ | ⟨t₀, t', w', hget₀, -, -, hmoves, hmoved⟩
  · exact ⟨t, hsame.trans hget, .refl t⟩
  · exact absurd hdeletes hkept
  · cases hget.symm.trans hnone
  · obtain rfl := Option.mem_unique hget hget₀
    exact ⟨t', hmoved, hmoves.advances⟩

theorem advances_run {w : World F} {calls : List (Tx × Call)} {id : String} {t : ThesisPayload F}
    (hget : w.get id = some t) (hkept : ¬ CS.Occurs step (Deletes id) w calls) :
    ∃ t', (CS.run step w calls).get id = some t' ∧ t.Advances t' := by
  induction calls generalizing w t with
  | nil => exact ⟨t, hget, .refl t⟩
  | cons a calls ih =>
    obtain ⟨hfirst, hrest⟩ := not_or.mp hkept
    obtain ⟨t', hget', hadvances⟩ := advances_step hget hfirst
    obtain ⟨t'', hget'', hadvances'⟩ := ih hget' hrest
    exact ⟨t'', hget'', hadvances.trans hadvances'⟩

theorem distinct_run (calls : List (Tx × Call)) {id : String} {t : ThesisPayload F}
    (hget : (CS.run step (World.empty : World F) calls).get id = some t) : t.Distinct := by
  refine @CS.Reachable.invariant _ _ _ step (fun w => ∀ t, w.get id = some t → t.Distinct)
    ?_ World.empty _ ⟨calls, rfl⟩ (fun t h => nomatch h) t hget
  rintro w ⟨tx, call⟩ hw t' hget'
  rcases get_step w tx call id with
    hsame | ⟨-, hnone⟩ | ⟨t₀, -, hfresh, hnew⟩ | ⟨t₀, u, w', hget₀, -, -, hmoves, hmoved⟩
  · exact hw t' (hsame ▸ hget')
  · cases hnone.symm.trans hget'
  · obtain rfl := Option.mem_unique hnew hget'
    exact hfresh.distinct
  · obtain rfl := Option.mem_unique hmoved hget'
    exact hmoves.distinct (hw t₀ hget₀)

/-- A record of any run stays on the ledger as long as it is not deleted, and what becomes of it is
a later state of it. Its grades and its signatures are of different jurors, and transactions on
other theses leave it as it is. -/
theorem thesis_moves_forward (before after : List (Tx × Call)) {id : String} {t : ThesisPayload F}
    (hget : (CS.run step (World.empty : World F) before).get id = some t)
    (hkept : ¬ CS.Occurs step (Deletes id) (CS.run step (World.empty : World F) before) after) :
    (∃ t', (CS.run step (World.empty : World F) (before ++ after)).get id = some t' ∧
      t.Advances t') ∧
    t.Distinct ∧
    ∀ a : Tx × Call, a.2.thesisId ≠ id →
      (step (CS.run step (World.empty : World F) before) a).2.get id = some t := by
  refine ⟨?_, distinct_run before hget, fun a hid => ?_⟩
  · rw [CS.run_append]
    exact advances_run hget hkept
  · rw [get_step_of_ne _ hid, hget]

/-- From the defence to the sealed thesis. -/
theorem thesis_moves_forward_sealing :
    ∃ t t', (CS.run step (World.empty : World .toy) defence).get "t" = some t ∧
      (CS.run step (World.empty : World .toy) (defence ++ sealing)).get "t" = some t' ∧
      t.Advances t' := by
  have hkept : ¬ CS.Occurs step (Deletes "t") (CS.run step (World.empty : World .toy) defence)
      sealing := by
    rintro (⟨h, -⟩ | ⟨h, -⟩ | ⟨h, -⟩ | h) <;> cases h
  obtain ⟨t', hget, hadvances⟩ := (thesis_moves_forward defence sealing rfl hkept).1
  exact ⟨_, t', rfl, hget, hadvances⟩

/-! ### The hash of the minutes -/

/-- A juror's signature over the hash. -/
def SignsWith (id hashPv : String) (w : World F) (a : Tx × Call) : Prop :=
  (∃ juror signature, a.2 = .signPv id juror hashPv signature) ∧ ∃ w', submit w a.1 a.2 = .ok w'

variable (F) in
/-- Whichever hash was signed since the thesis was last deleted, the thesis is there and it is the
one that its record has. So all signers signed the same hash. -/
def OneHash (id : String) (calls : List (Tx × Call)) : Prop :=
  ∀ hashPv, CS.Since step (SignsWith id hashPv) (Deletes id) (World.empty : World F) calls →
    ∃ t, (CS.run step (World.empty : World F) calls).get id = some t ∧ t.hashPv = hashPv

/-- When the record has signatures and the empty hash, the transaction does not sign another one. -/
def KeepsEmptyHash (id : String) (w : World F) (a : Tx × Call) : Prop :=
  ∀ juror hashPv signature, a.2 = .signPv id juror hashPv signature →
    ∀ t, w.get id = some t → t.pvSignatures ≠ [] → t.hashPv = "" → hashPv = ""

section OneHash

variable {w : World F} {a : Tx × Call} {id hashPv : String} {t t' : ThesisPayload F}

theorem SignsWith.get_step (h : SignsWith id hashPv w a) :
    ∃ t s, w.get id = some t ∧ (t.hashPv = "" ∨ t.hashPv = hashPv) ∧
      (step w a).2.get id = some (t.addSignature hashPv s) := by
  obtain ⟨tx, call⟩ := a
  obtain ⟨⟨juror, signature, rfl⟩, w', hsubmit⟩ := h
  have hnext : (step w (tx, .signPv id juror hashPv signature)).2 = w' := by
    simp only [step, hsubmit]
  rw [hnext]
  rcases submit_cases hsubmit with
    ⟨t, _, _, _, hcall, -⟩ | ⟨t, t', hget, hmoves, rfl⟩ | ⟨id', hcall, -⟩
  · cases hcall
  · cases hmoves with
    | signed s hdefended hmember hhash =>
      refine ⟨t, s, hget, hhash, ?_⟩
      rw [World.get_put, ThesisPayload.addSignature,
        ThesisPayload.thesisId_tryFinalizeNotarization, if_pos rfl]
  · cases hcall

theorem ThesisPayload.hashPv_addSignature (t : ThesisPayload F) (hashPv : String)
    (s : PvSignature) :
    (t.addSignature hashPv s).hashPv = if t.hashPv = "" then hashPv else t.hashPv := by
  unfold addSignature tryFinalizeNotarization
  split_ifs <;> rfl

theorem ThesisPayload.pvSignatures_addSignature (t : ThesisPayload F) (hashPv : String)
    (s : PvSignature) : (t.addSignature hashPv s).pvSignatures = t.pvSignatures ++ [s] := by
  unfold addSignature tryFinalizeNotarization
  split_ifs <;> rfl

/-- A record with signatures keeps its hash, unless the empty one is replaced. -/
theorem Moves.hashPv_eq {tx : Tx} {call : Call} (h : Moves tx call t t')
    (hget : w.get t.thesisId = some t) (hsigned : t.pvSignatures ≠ [])
    (hkeeps : KeepsEmptyHash t.thesisId w (tx, call)) : t'.hashPv = t.hashPv := by
  cases h with
  | graded g =>
    unfold ThesisPayload.addGrade ThesisPayload.closeGrading
    split_ifs <;> rfl
  | @signed _ hashPv _ s =>
    rw [ThesisPayload.hashPv_addSignature]
    split_ifs with hempty
    · rw [hkeeps _ _ _ rfl t hget hsigned hempty, hempty]
    · rfl
  | documented =>
    unfold ThesisPayload.setDocument ThesisPayload.tryFinalizeNotarization
    split_ifs <;> rfl
  | administered adm updatedAt => rfl

theorem SignsWith.hashPv_step (h : SignsWith id hashPv w a) :
    ∃ t, (step w a).2.get id = some t ∧ t.hashPv = hashPv ∧ t.pvSignatures ≠ [] := by
  obtain ⟨t, s, -, hhash, hget⟩ := h.get_step
  refine ⟨_, hget, ?_, ?_⟩
  · rw [ThesisPayload.hashPv_addSignature]
    split_ifs with hempty
    · rfl
    · exact hhash.resolve_left hempty
  · rw [ThesisPayload.pvSignatures_addSignature]
    exact List.append_ne_nil_of_right_ne_nil _ (List.cons_ne_nil _ _)

theorem hashPv_step (hget : w.get id = some t) (hsigned : t.pvSignatures ≠ [])
    (hkept : ¬ Deletes id w a) (hkeeps : KeepsEmptyHash id w a) :
    ∃ t', (step w a).2.get id = some t' ∧ t'.hashPv = t.hashPv ∧ t'.pvSignatures ≠ [] := by
  obtain ⟨tx, call⟩ := a
  rcases get_step w tx call id with
    hsame | ⟨hdeletes, -⟩ | ⟨_, hnone, -⟩ | ⟨t₀, t', w', hget₀, hid, -, hmoves, hmoved⟩
  · exact ⟨t, hsame.trans hget, rfl, hsigned⟩
  · exact absurd hdeletes hkept
  · cases hget.symm.trans hnone
  · obtain rfl := Option.mem_unique hget hget₀
    subst hid
    exact ⟨t', hmoved, hmoves.hashPv_eq hget hsigned hkeeps,
      hmoves.advances.signatures.ne_nil hsigned⟩

end OneHash

/-- In every state of a run in which nobody replaces a signed empty hash, all signatures on a thesis
are over the hash that its record has. -/
theorem oneHash_of_keepsEmptyHash {id : String} {calls : List (Tx × Call)}
    (hkeeps : CS.Guarded step (KeepsEmptyHash id) (World.empty : World F) calls) :
    ∀ done, done <+: calls → OneHash F id done := by
  rintro done ⟨rest, rfl⟩
  -- Along the run the record is also known to have a signature.
  have hsigned : ∀ hashPv,
      CS.Since step (SignsWith id hashPv) (Deletes id) (World.empty : World F) done →
      ∃ t, (CS.run step (World.empty : World F) done).get id = some t ∧ t.hashPv = hashPv ∧
        t.pvSignatures ≠ [] := by
    refine (CS.guarded_append.mp hkeeps).1.history
      (fun done w => ∀ hashPv, CS.Since step (SignsWith id hashPv) (Deletes id) World.empty done →
        ∃ t, w.get id = some t ∧ t.hashPv = hashPv ∧ t.pvSignatures ≠ []) ?_ ?_
    · rintro done a ih hok hashPv hsince
      rcases CS.since_concat.mp hsince with hsigns | ⟨hearlier, hkept⟩
      · exact hsigns.hashPv_step
      · obtain ⟨t, hget, hhash, hne⟩ := ih hashPv hearlier
        obtain ⟨t', hget', hhash', hne'⟩ := hashPv_step hget hne hkept hok
        exact ⟨t', hget', hhash'.trans hhash, hne'⟩
    · rintro hashPv ⟨before, a, after, hnil, -⟩
      simp at hnil
  intro hashPv hsince
  obtain ⟨t, hget, hhash, -⟩ := hsigned hashPv hsince
  exact ⟨t, hget, hhash⟩

/-- A thesis with two jurors, who have graded it and sign over the given hashes. -/
def minutes (first second : String) : List (Tx × Call) :=
  [({ client := .ok "admin" }, .createThesis "t" "s" (.ok ⟨["a", "b"]⟩) "admin"),
   ({ client := .ok "a" }, .submitJuryGrade "t" "a" "10" ""),
   ({ client := .ok "b" }, .submitJuryGrade "t" "b" "10" ""),
   ({ client := .ok "a" }, .signPv "t" "a" first "sig"),
   ({ client := .ok "b" }, .signPv "t" "b" second "sig")]

theorem oneHash_minutes : OneHash .toy "t" (minutes "h" "h") := by
  refine oneHash_of_keepsEmptyHash ?_ (minutes "h" "h") List.prefix_rfl
  refine ⟨?_, ?_, ?_, ?_, ?_, trivial⟩
  · rintro juror hashPv signature ⟨⟩
  · rintro juror hashPv signature ⟨⟩
  · rintro juror hashPv signature ⟨⟩
  · rintro juror hashPv signature ⟨⟩ t ⟨⟩ hne
    exact absurd rfl hne
  · rintro juror hashPv signature ⟨⟩ t ⟨⟩ - hempty
    exact absurd hempty (by decide)

/-- The first juror signs the empty hash, the second one another; both succeed. -/
theorem not_oneHash_minutes : ¬ OneHash .toy "t" (minutes "" "h") := by
  intro hone
  have hsigns : CS.Since step (SignsWith "t" "") (Deletes "t") (World.empty : World .toy)
      (minutes "" "h") := by
    refine ⟨(minutes "" "h").take 3, _, _, rfl, ⟨⟨"a", "sig", rfl⟩, _, rfl⟩, ?_⟩
    rintro (⟨h, -⟩ | h) <;> cases h
  obtain ⟨t, hget, hhash⟩ := hone "" hsigns
  cases hget
  exact absurd hhash (by decide)

end VirtualHsm.ThesisContract
