import Mathlib.Data.List.Basic
import Mathlib.Logic.Function.Basic
import Mathlib.Tactic.SplitIfs
import VirtualHsm.CS.Run

/-!
# The thesis contract

The contract that keeps thesis records on the ledger. The members of a jury grade a thesis, which
is then defended; they sign its minutes, and once the document has a hash and a signature as well,
the thesis is notarized.

Grades are floating-point numbers of a library. What decoders make of a document, the time stamp
and the identity of the client are part of a transaction.
-/

namespace VirtualHsm.ThesisContract

/-! ### Records -/

/-- A library's floating-point numbers. -/
structure Floats where
  Val : Type
  parseFloat : String → Except String Val
  isNaN : Val → Bool
  isInf : Val → Bool
  lt : Val → Val → Bool
  ofNat : Nat → Val
  add : Val → Val → Val
  div : Val → Val → Val
  /-- The shortest text, and the one with two decimals. -/
  format : Val → String
  formatFixed2 : Val → String

inductive ThesisStatus
  | draft
  | defended
  | notarized
  | archived
  deriving DecidableEq, Repr

def ThesisStatus.text : ThesisStatus → String
  | draft => "DRAFT"
  | defended => "DEFENDED"
  | notarized => "NOTARIZED"
  | archived => "ARCHIVED"

structure JuryGrade (F : Floats) where
  jurorId : String
  grade : F.Val
  comment : String
  submittedAt : Int
  submittedBy : String

structure PvSignature where
  jurorId : String
  signature : String
  signedAt : Int

structure AdministrativeInfo where
  juryMembers : List String := []

structure ThesisPayload (F : Floats) where
  thesisId : String
  studentId : String
  administrative : Option AdministrativeInfo := none
  thesisGrade : String := ""
  juryGrades : List (JuryGrade F) := []
  pvSignatures : List PvSignature := []
  status : ThesisStatus := .draft
  createdBy : String := ""
  createdAt : Int := 0
  updatedAt : Int := 0
  hashDocument : String := ""
  signatureDocument : String := ""
  hashPv : String := ""

namespace ThesisPayload

variable {F : Floats} (t : ThesisPayload F)

/-- The jury; without administrative data it is empty. -/
def members : List String := t.administrative.elim [] (·.juryMembers)

def graders : List String := t.juryGrades.map (·.jurorId)

def signers : List String := t.pvSignatures.map (·.jurorId)

/-- The mean of the grades, summed up from zero in their order. -/
def average : F.Val :=
  F.div (t.juryGrades.foldl (fun sum g => F.add sum g.grade) (F.ofNat 0))
    (F.ofNat t.juryGrades.length)

/-- When there are as many grades as members, the final grade is set and the thesis is defended. -/
def closeGrading : ThesisPayload F :=
  if t.juryGrades.length = t.members.length then
    { t with thesisGrade := F.formatFixed2 t.average, status := .defended }
  else t

def addGrade (g : JuryGrade F) : ThesisPayload F :=
  closeGrading { t with juryGrades := t.juryGrades ++ [g] }

/-- `tryFinalizeNotarization`. -/
def tryFinalizeNotarization : ThesisPayload F :=
  if t.status = .defended ∧ t.members ≠ [] ∧ t.hashDocument ≠ "" ∧ t.signatureDocument ≠ "" ∧
      t.pvSignatures.length = t.members.length then
    { t with status := .notarized }
  else t

/-- A signature is added; the first one fixes the hash of the minutes. -/
def addSignature (hashPv : String) (s : PvSignature) : ThesisPayload F :=
  tryFinalizeNotarization
    { t with
      hashPv := if t.hashPv = "" then hashPv else t.hashPv
      pvSignatures := t.pvSignatures ++ [s] }

def setDocument (hash signature : String) : ThesisPayload F :=
  tryFinalizeNotarization { t with hashDocument := hash, signatureDocument := signature }

def setAdministrative (adm : AdministrativeInfo) (updatedAt : Int) : ThesisPayload F :=
  { t with administrative := some adm, updatedAt }

/-! Closing the grading and sealing a thesis change its status, and who has graded or signed
stays. -/

@[simp] theorem thesisId_closeGrading : t.closeGrading.thesisId = t.thesisId := by
  unfold closeGrading
  split_ifs <;> rfl

@[simp] theorem graders_closeGrading : t.closeGrading.graders = t.graders := by
  unfold closeGrading
  split_ifs <;> rfl

@[simp] theorem signers_closeGrading : t.closeGrading.signers = t.signers := by
  unfold closeGrading
  split_ifs <;> rfl

@[simp] theorem thesisId_tryFinalizeNotarization :
    t.tryFinalizeNotarization.thesisId = t.thesisId := by
  unfold tryFinalizeNotarization
  split_ifs <;> rfl

@[simp] theorem graders_tryFinalizeNotarization :
    t.tryFinalizeNotarization.graders = t.graders := by
  unfold tryFinalizeNotarization
  split_ifs <;> rfl

@[simp] theorem signers_tryFinalizeNotarization :
    t.tryFinalizeNotarization.signers = t.signers := by
  unfold tryFinalizeNotarization
  split_ifs <;> rfl

theorem graders_append (g : JuryGrade F) :
    graders { t with juryGrades := t.juryGrades ++ [g] } = t.graders ++ [g.jurorId] :=
  List.map_append

theorem signers_append (hashPv : String) (s : PvSignature) :
    signers { t with hashPv, pvSignatures := t.pvSignatures ++ [s] } = t.signers ++ [s.jurorId] :=
  List.map_append

end ThesisPayload

/-! ### The ledger -/

/-- The records on the ledger, each under its own identifier. -/
structure World (F : Floats) where
  get : String → Option (ThesisPayload F)
  keyed : ∀ id t, get id = some t → t.thesisId = id

/-- What a transaction brings with it; an error stands for what the stub returned. -/
structure Tx where
  state : Except String Unit := .ok ()
  timestamp : Except String Int := .ok 0
  client : Except String String := .ok ""

namespace World

variable {F : Floats} (w : World F)

def empty : World F := ⟨fun _ => none, fun _ _ h => nomatch h⟩

def put (t : ThesisPayload F) : World F where
  get := Function.update w.get t.thesisId (some t)
  keyed := by
    intro id t' h
    by_cases hid : id = t.thesisId
    · subst hid
      rw [Function.update_self, Option.some.injEq] at h
      rw [h]
    · rw [Function.update_of_ne hid] at h
      exact w.keyed id t' h

def delete (id : String) : World F where
  get := Function.update w.get id none
  keyed := by
    intro id' t h
    by_cases hid : id' = id
    · subst hid
      rw [Function.update_self] at h
      cases h
    · rw [Function.update_of_ne hid] at h
      exact w.keyed id' t h

theorem get_put (t : ThesisPayload F) (id : String) :
    (w.put t).get id = if id = t.thesisId then some t else w.get id :=
  Function.update_apply w.get t.thesisId (some t) id

theorem get_delete (id id' : String) :
    (w.delete id).get id' = if id' = id then none else w.get id' :=
  Function.update_apply w.get id none id'

end World

section Contract

/-- Fail with a message unless the condition holds. -/
def require (c : Prop) [Decidable c] (message : String) : Except String Unit :=
  if c then .ok () else .error message

/-- The value that the stub or a decoder returned, or its error after a message. -/
def wrap {α : Type} (message : String) : Except String α → Except String α
  | .ok a => .ok a
  | .error e => .error (message ++ e)

/-- `clientID`: an empty identity counts as unavailable. -/
def clientID (tx : Tx) : Except String String :=
  let message := "identité du client introuvable : la transaction doit être soumise via un canal " ++
    "authentifié (mTLS) : "
  match tx.client with
  | .error e => .error (message ++ e)
  | .ok id => if id = "" then .error (message ++ "%!w(<nil>)") else .ok id

def txTime (tx : Tx) : Except String Int :=
  wrap "échec de récupération du timestamp de transaction : " tx.timestamp

variable {F : Floats} (tx : Tx) (w : World F)

def getState (thesisId : String) : Except String (Option (ThesisPayload F)) := do
  wrap "échec de lecture du ledger : " tx.state
  return w.get thesisId

def getThesis (thesisId : String) : Except String (ThesisPayload F) := do
  match ← getState tx w thesisId with
  | none => .error ("aucune thèse trouvée avec l'ID '" ++ thesisId ++ "'")
  | some t => .ok t

/-- `putThesis`: the stub refuses an empty key. -/
def putThesis (t : ThesisPayload F) : Except String (World F) := do
  require (t.thesisId ≠ "") "key must not be an empty string"
  return w.put t

/-! ### Transactions -/

/-- `CreateThesis`: the client's identity is not asked for. -/
def createThesis (thesisId studentId : String) (data : Except String AdministrativeInfo)
    (createdBy : String) : Except String (World F) := do
  let found ← getState tx w thesisId
  require found.isNone ("la thèse avec l'ID '" ++ thesisId ++ "' existe déjà")
  let adm ← wrap "échec de désérialisation des données initiales : " data
  let createdAt ← txTime tx
  putThesis w { thesisId, studentId, administrative := some adm, createdBy, createdAt }

/-- `NotarizeDocument`: neither the client's identity nor a jury is asked for. -/
def notarizeDocument (thesisId hashDocument signatureDocument : String) :
    Except String (World F) := do
  let t ← getThesis tx w thesisId
  require (t.status = .defended)
    ("impossible de notarier le document : la soutenance n'est pas encore actée par l'ensemble " ++
      "du jury (statut actuel : " ++ t.status.text ++ ")")
  putThesis w (t.setDocument hashDocument signatureDocument)

/-- `SubmitJuryGrade`: the juror is an argument; the client's identity is recorded with it. -/
def submitJuryGrade (thesisId jurorId grade comment : String) : Except String (World F) := do
  let t ← getThesis tx w thesisId
  require (t.status = .draft)
    ("impossible de soumettre une note : la fenêtre de notation est fermée pour cette thèse " ++
      "(statut actuel : " ++ t.status.text ++ ")")
  require (t.members ≠ []) ("aucun membre de jury n'est assigné à la thèse '" ++ thesisId ++ "'")
  require (jurorId ∈ t.members)
    ("'" ++ jurorId ++ "' n'est pas membre du jury assigné à la thèse '" ++ thesisId ++ "'")
  require (jurorId ∉ t.graders)
    ("le membre du jury '" ++ jurorId ++ "' a déjà soumis une note pour la thèse '" ++ thesisId ++
      "'")
  let value ← wrap ("note invalide '" ++ grade ++ "' : ") (F.parseFloat grade)
  require (F.isNaN value = false ∧ F.isInf value = false)
    ("note invalide '" ++ grade ++ "' : NaN ou valeur infinie")
  require (F.lt value (F.ofNat 0) = false ∧ F.lt (F.ofNat 20) value = false)
    ("note hors bornes (0..20) : " ++ F.format value)
  -- The client is recorded and not compared with the juror.
  let submittedBy ← clientID tx
  let submittedAt ← txTime tx
  putThesis w (t.addGrade { jurorId, grade := value, comment, submittedAt, submittedBy })

/-- `SignPv`: a client is required, but not that it is the juror. -/
def signPv (thesisId jurorId hashPv signature : String) : Except String (World F) := do
  let _ ← clientID tx
  let t ← getThesis tx w thesisId
  require (t.status = .defended)
    ("impossible de signer le PV : la soutenance n'est pas encore actée par l'ensemble du jury " ++
      "(statut actuel : " ++ t.status.text ++ ")")
  require (t.members ≠ []) ("aucun membre de jury n'est assigné à la thèse '" ++ thesisId ++ "'")
  require (jurorId ∈ t.members)
    ("'" ++ jurorId ++ "' n'est pas membre du jury assigné à la thèse '" ++ thesisId ++ "'")
  -- All members sign the minutes that the first one signed.
  require (t.hashPv = "" ∨ t.hashPv = hashPv)
    ("le hash du PV fourni ne correspond pas au PV déjà enregistré pour la thèse '" ++ thesisId ++
      "' — signature refusée")
  require (jurorId ∉ t.signers)
    ("le membre du jury '" ++ jurorId ++ "' a déjà signé le PV de la thèse '" ++ thesisId ++ "'")
  let signedAt ← txTime tx
  putThesis w (t.addSignature hashPv { jurorId, signature, signedAt })

/-- `UpdateAdministrative`: the jury is replaced whatever the status. -/
def updateAdministrative (thesisId : String) (data : Except String AdministrativeInfo) :
    Except String (World F) := do
  let _ ← clientID tx
  let t ← getThesis tx w thesisId
  let adm ← wrap "échec de désérialisation des données mises à jour : " data
  let updatedAt ← txTime tx
  putThesis w (t.setAdministrative adm updatedAt)

def deleteThesis (thesisId : String) : Except String (World F) := do
  let _ ← clientID tx
  let found ← getState tx w thesisId
  require found.isSome ("aucune thèse trouvée avec l'ID '" ++ thesisId ++ "'")
  return w.delete thesisId

end Contract

inductive Call
  | createThesis (thesisId studentId : String) (data : Except String AdministrativeInfo)
      (createdBy : String)
  | updateAdministrative (thesisId : String) (data : Except String AdministrativeInfo)
  | submitJuryGrade (thesisId jurorId grade comment : String)
  | signPv (thesisId jurorId hashPv signature : String)
  | notarizeDocument (thesisId hashDocument signatureDocument : String)
  | deleteThesis (thesisId : String)

/-- The thesis that a transaction is about. -/
def Call.thesisId : Call → String
  | .createThesis id _ _ _ => id
  | .updateAdministrative id _ => id
  | .submitJuryGrade id _ _ _ => id
  | .signPv id _ _ _ => id
  | .notarizeDocument id _ _ => id
  | .deleteThesis id => id

def submit {F : Floats} (w : World F) (tx : Tx) : Call → Except String (World F)
  | .createThesis id student data createdBy => createThesis tx w id student data createdBy
  | .updateAdministrative id data => updateAdministrative tx w id data
  | .submitJuryGrade id juror grade comment => submitJuryGrade tx w id juror grade comment
  | .signPv id juror hashPv signature => signPv tx w id juror hashPv signature
  | .notarizeDocument id hash signature => notarizeDocument tx w id hash signature
  | .deleteThesis id => deleteThesis tx w id

/-- One transaction; its error leaves the ledger as it was. -/
def step {F : Floats} (w : World F) (a : Tx × Call) : Except String Unit × World F :=
  match submit w a.1 a.2 with
  | .ok w' => (.ok (), w')
  | .error e => (.error e, w)

/-! ### What a transaction does -/

section Cases

variable {F : Floats} {tx : Tx} {w w' : World F} {id : String} {t t' : ThesisPayload F} {call : Call}

theorem bind_eq_ok {α β : Type} {x : Except String α} {f : α → Except String β} {b : β} :
    (x >>= f) = .ok b ↔ ∃ a, x = .ok a ∧ f a = .ok b := by
  cases x <;> simp [bind, Except.bind]

theorem require_bind_eq_ok {β : Type} {c : Prop} [Decidable c] {message : String}
    {f : Unit → Except String β} {b : β} :
    (require c message >>= f) = .ok b ↔ c ∧ f () = .ok b := by
  unfold require
  by_cases h : c <;> simp [h, bind, Except.bind]

theorem getState_eq_ok {found : Option (ThesisPayload F)} (h : getState tx w id = .ok found) :
    w.get id = found := by
  obtain ⟨_, -, hfound⟩ := bind_eq_ok.mp h
  exact Except.ok.inj hfound

theorem getThesis_eq_ok (h : getThesis tx w id = .ok t) : w.get id = some t := by
  obtain ⟨found, hfound, hmatch⟩ := bind_eq_ok.mp h
  rw [getState_eq_ok hfound]
  cases found with
  | none => cases hmatch
  | some t' => rw [Except.ok.inj hmatch]

theorem putThesis_eq_ok (h : putThesis w t = .ok w') : w' = w.put t :=
  (Except.ok.inj (require_bind_eq_ok.mp h).2).symm

theorem wrap_eq_ok {α : Type} {message : String} {x : Except String α} {a : α}
    (h : wrap message x = .ok a) : x = .ok a := by
  cases x with
  | ok b => exact h
  | error e => cases h

/-- What a transaction on a record makes of it, with the checks that it has passed. -/
inductive Moves (tx : Tx) : Call → ThesisPayload F → ThesisPayload F → Prop
  | graded {t : ThesisPayload F} {grade : String} (g : JuryGrade F) (hdraft : t.status = .draft)
      (hmember : g.jurorId ∈ t.members) (hfresh : g.jurorId ∉ t.graders)
      (hclient : clientID tx = .ok g.submittedBy) :
      Moves tx (.submitJuryGrade t.thesisId g.jurorId grade g.comment) t (t.addGrade g)
  | signed {t : ThesisPayload F} {hashPv client : String} (s : PvSignature)
      (hdefended : t.status = .defended) (hmember : s.jurorId ∈ t.members)
      (hhash : t.hashPv = "" ∨ t.hashPv = hashPv) (hfresh : s.jurorId ∉ t.signers)
      (hclient : clientID tx = .ok client) :
      Moves tx (.signPv t.thesisId s.jurorId hashPv s.signature) t (t.addSignature hashPv s)
  | documented {t : ThesisPayload F} {hash signature : String}
      (hdefended : t.status = .defended) :
      Moves tx (.notarizeDocument t.thesisId hash signature) t (t.setDocument hash signature)
  | administered {t : ThesisPayload F} (adm : AdministrativeInfo) (updatedAt : Int) :
      Moves tx (.updateAdministrative t.thesisId (.ok adm)) t (t.setAdministrative adm updatedAt)

/-- A record as it is created. -/
def Fresh (t : ThesisPayload F) : Prop :=
  ∃ id student adm createdBy createdAt,
    t = { thesisId := id, studentId := student, administrative := some adm, createdBy, createdAt }

theorem Moves.thesisId_eq (h : Moves tx call t t') : t'.thesisId = t.thesisId := by
  cases h with
  | graded g => exact ThesisPayload.thesisId_closeGrading _
  | signed s | documented => exact ThesisPayload.thesisId_tryFinalizeNotarization _
  | administered adm updatedAt => rfl

theorem Moves.members_eq {adm : AdministrativeInfo} (h : Moves tx call t t')
    (hcall : call = .updateAdministrative id (.ok adm)) : t'.members = adm.juryMembers := by
  cases h with
  | administered adm' updatedAt =>
    obtain ⟨-, hadm⟩ := Call.updateAdministrative.inj hcall
    cases hadm
    rfl
  | _ => cases hcall

theorem Moves.graders_cases (h : Moves tx call t t') :
    t'.graders = t.graders ∨
      ∃ juror grade comment client, call = .submitJuryGrade t.thesisId juror grade comment ∧
        clientID tx = .ok client ∧ t'.graders = t.graders ++ [juror] := by
  cases h with
  | @graded _ grade g _ _ _ hclient =>
    refine .inr ⟨g.jurorId, grade, g.comment, g.submittedBy, rfl, hclient, ?_⟩
    exact (ThesisPayload.graders_closeGrading _).trans (t.graders_append g)
  | signed s | documented => exact .inl (ThesisPayload.graders_tryFinalizeNotarization _)
  | administered adm updatedAt => exact .inl rfl

theorem Moves.signers_cases (h : Moves tx call t t') :
    t'.signers = t.signers ∨
      ∃ juror hashPv signature client, call = .signPv t.thesisId juror hashPv signature ∧
        clientID tx = .ok client ∧ t'.signers = t.signers ++ [juror] := by
  cases h with
  | graded g => exact .inl (ThesisPayload.signers_closeGrading _)
  | @signed _ hashPv client s _ _ _ _ hclient =>
    refine .inr ⟨s.jurorId, hashPv, s.signature, client, rfl, hclient, ?_⟩
    exact (ThesisPayload.signers_tryFinalizeNotarization _).trans (t.signers_append _ s)
  | documented => exact .inl (ThesisPayload.signers_tryFinalizeNotarization _)
  | administered adm updatedAt => exact .inl rfl

theorem Moves.thesisId_call (h : Moves tx call t t') : call.thesisId = t.thesisId := by
  cases h <;> rfl

/-- A successful transaction creates a record where there is none, moves a record, or deletes
one. -/
theorem submit_cases (h : submit w tx call = .ok w') :
    (∃ t student data createdBy, call = .createThesis t.thesisId student data createdBy ∧
      w.get t.thesisId = none ∧ Fresh t ∧ w' = w.put t) ∨
    (∃ t t', w.get t.thesisId = some t ∧ Moves tx call t t' ∧ w' = w.put t') ∨
    (∃ id, call = .deleteThesis id ∧ w' = w.delete id) := by
  cases call with
  | createThesis id student data createdBy =>
    obtain ⟨found, hfound, h⟩ := bind_eq_ok.mp h
    obtain ⟨hnone, h⟩ := require_bind_eq_ok.mp h
    obtain ⟨adm, -, h⟩ := bind_eq_ok.mp h
    obtain ⟨createdAt, -, h⟩ := bind_eq_ok.mp h
    have hget := (getState_eq_ok hfound).trans (Option.isNone_iff_eq_none.mp hnone)
    have hput := putThesis_eq_ok h
    exact .inl ⟨_, student, data, createdBy, rfl, hget,
      ⟨id, student, adm, createdBy, createdAt, rfl⟩, hput⟩
  | updateAdministrative id data =>
    obtain ⟨_, -, h⟩ := bind_eq_ok.mp h
    obtain ⟨t, ht, h⟩ := bind_eq_ok.mp h
    obtain ⟨adm, hadm, h⟩ := bind_eq_ok.mp h
    obtain ⟨updatedAt, -, h⟩ := bind_eq_ok.mp h
    have hget := getThesis_eq_ok ht
    have hput := putThesis_eq_ok h
    rw [wrap_eq_ok hadm]
    obtain rfl := w.keyed id t hget
    exact .inr (.inl ⟨t, _, hget, .administered adm updatedAt, hput⟩)
  | submitJuryGrade id juror grade comment =>
    obtain ⟨t, ht, h⟩ := bind_eq_ok.mp h
    obtain ⟨hdraft, h⟩ := require_bind_eq_ok.mp h
    obtain ⟨-, h⟩ := require_bind_eq_ok.mp h
    obtain ⟨hmember, h⟩ := require_bind_eq_ok.mp h
    obtain ⟨hfresh, h⟩ := require_bind_eq_ok.mp h
    obtain ⟨value, -, h⟩ := bind_eq_ok.mp h
    obtain ⟨-, h⟩ := require_bind_eq_ok.mp h
    obtain ⟨-, h⟩ := require_bind_eq_ok.mp h
    obtain ⟨client, hclient, h⟩ := bind_eq_ok.mp h
    obtain ⟨submittedAt, -, h⟩ := bind_eq_ok.mp h
    have hget := getThesis_eq_ok ht
    have hput := putThesis_eq_ok h
    obtain rfl := w.keyed id t hget
    exact .inr (.inl ⟨t, _, hget, .graded ⟨juror, value, comment, submittedAt, client⟩ hdraft
      hmember hfresh hclient, hput⟩)
  | signPv id juror hashPv signature =>
    obtain ⟨client, hclient, h⟩ := bind_eq_ok.mp h
    obtain ⟨t, ht, h⟩ := bind_eq_ok.mp h
    obtain ⟨hdefended, h⟩ := require_bind_eq_ok.mp h
    obtain ⟨-, h⟩ := require_bind_eq_ok.mp h
    obtain ⟨hmember, h⟩ := require_bind_eq_ok.mp h
    obtain ⟨hhash, h⟩ := require_bind_eq_ok.mp h
    obtain ⟨hfresh, h⟩ := require_bind_eq_ok.mp h
    obtain ⟨signedAt, -, h⟩ := bind_eq_ok.mp h
    have hget := getThesis_eq_ok ht
    have hput := putThesis_eq_ok h
    obtain rfl := w.keyed id t hget
    exact .inr (.inl ⟨t, _, hget, .signed ⟨juror, signature, signedAt⟩ hdefended hmember hhash
      hfresh hclient, hput⟩)
  | notarizeDocument id hash signature =>
    obtain ⟨t, ht, h⟩ := bind_eq_ok.mp h
    obtain ⟨hdefended, h⟩ := require_bind_eq_ok.mp h
    have hget := getThesis_eq_ok ht
    have hput := putThesis_eq_ok h
    obtain rfl := w.keyed id t hget
    exact .inr (.inl ⟨t, _, hget, .documented hdefended, hput⟩)
  | deleteThesis id =>
    obtain ⟨_, -, h⟩ := bind_eq_ok.mp h
    obtain ⟨found, -, h⟩ := bind_eq_ok.mp h
    obtain ⟨-, h⟩ := require_bind_eq_ok.mp h
    exact .inr (.inr ⟨id, rfl, (Except.ok.inj h).symm⟩)

/-- The transaction deletes the thesis. -/
def Deletes (id : String) (w : World F) (a : Tx × Call) : Prop :=
  a.2 = .deleteThesis id ∧ ∃ w', submit w a.1 a.2 = .ok w'

/-- What the ledger holds under an identifier after one transaction: what it held, nothing, a new
record, or what the transaction makes of the old one. -/
theorem get_step (w : World F) (tx : Tx) (call : Call) (id : String) :
    (step w (tx, call)).2.get id = w.get id ∨
    (Deletes id w (tx, call) ∧ (step w (tx, call)).2.get id = none) ∨
    (∃ t, w.get id = none ∧ Fresh t ∧ (step w (tx, call)).2.get id = some t) ∨
    ∃ t t' w', w.get id = some t ∧ t.thesisId = id ∧ submit w tx call = .ok w' ∧
      Moves tx call t t' ∧ (step w (tx, call)).2.get id = some t' := by
  cases hsubmit : submit w tx call with
  | error e => exact .inl (by simp only [step, hsubmit])
  | ok w' =>
    have hnext : (step w (tx, call)).2 = w' := by simp only [step, hsubmit]
    rw [hnext]
    rcases submit_cases hsubmit with
      ⟨t, -, -, -, -, hnone, hfresh, rfl⟩ | ⟨t, t', hget, hmoves, rfl⟩ | ⟨id', hcall, rfl⟩
    · rw [World.get_put]
      split_ifs with hid
      · subst hid
        exact .inr (.inr (.inl ⟨t, hnone, hfresh, rfl⟩))
      · exact .inl rfl
    · rw [World.get_put, hmoves.thesisId_eq]
      split_ifs with hid
      · subst hid
        exact .inr (.inr (.inr ⟨t, t', _, hget, rfl, rfl, hmoves, rfl⟩))
      · exact .inl rfl
    · rw [World.get_delete]
      split_ifs with hid
      · subst hid
        exact .inr (.inl ⟨⟨hcall, _, hsubmit⟩, rfl⟩)
      · exact .inl rfl

theorem get_step_of_ne (w : World F) {a : Tx × Call} (hid : a.2.thesisId ≠ id) :
    (step w a).2.get id = w.get id := by
  obtain ⟨tx, call⟩ := a
  cases hsubmit : submit w tx call with
  | error e => simp only [step, hsubmit]
  | ok w' =>
    have hnext : (step w (tx, call)).2 = w' := by simp only [step, hsubmit]
    rw [hnext]
    rcases submit_cases hsubmit with
      ⟨t, _, _, _, rfl, -, -, rfl⟩ | ⟨t, t', -, hmoves, rfl⟩ | ⟨id', rfl, rfl⟩
    · rw [World.get_put]
      exact if_neg hid.symm
    · rw [World.get_put, hmoves.thesisId_eq, if_neg (hmoves.thesisId_call ▸ hid.symm)]
    · rw [World.get_delete]
      exact if_neg hid.symm

end Cases

end VirtualHsm.ThesisContract
