import VirtualHsm.CS.Buffer
import VirtualHsm.Persistence.Vault

/-!
# Saving a vault, system call by system call

`save` writes the new image to a temporary file beside the vault, flushes and closes it, and renames
it over the vault. When a call fails it removes the temporary file and throws. Here every system
call is a step, with its result as an input, so that a reader may look at the files between any two
of them. The rename is atomic, and removing the temporary file and closing the descriptor on the
way out are assumed to work.
-/

namespace VirtualHsm

/-! ### The system calls -/

/-- The contents of the files, by path. -/
abbrev FileSystem := String → Option Bytes

/-- What a system call returns: a count, which only matters for `write`, or an error. -/
inductive SysResult
  | ok (n : Nat)
  | error (detail : String)
  deriving DecidableEq, Repr

/-- The call fails, or a `write` accepts something. -/
def SysResult.Progresses : SysResult → Prop
  | ok n => 1 ≤ n
  | error _ => True

/-- The next system call of `save`. -/
inductive SavePhase
  | opening
  | writing (written : Nat)
  | syncing
  | closing
  /-- `rename` over the vault. -/
  | replacing
  /-- `close` after a failed `write` or `fsync`. -/
  | abandoning (fault : SaveFault)
  | unlinking (fault : SaveFault)
  | syncingDirectory
  | finished (result : Except String Unit)

structure SaveState where
  files : FileSystem
  phase : SavePhase
  valid : Bool

/-- An image to be put in place of a file, by way of another one. -/
structure SaveJob where
  image : Bytes
  path : String
  tmpPath : String
  tmpPath_ne : tmpPath ≠ path

namespace SaveJob

variable (job : SaveJob)

/-- The head of the loop: write on, or go to `fsync` when everything is written. -/
def writeOn (written : Nat) : SavePhase :=
  if written < job.image.length then .writing written else .syncing

/-- One system call of `save`. -/
def step (s : SaveState) (r : SysResult) : SaveState :=
  match s.phase, r with
  | .opening, .ok _ =>
    { s with files := Function.update s.files job.tmpPath (some []), phase := job.writeOn 0 }
  | .opening, .error detail =>
    { s with phase := .finished (.error (SaveFault.createTemp detail).message) }
  | .writing written, .ok n =>
    -- A short write is continued where it stopped.
    let accepted := (job.image.drop written).take n
    { s with
      files := Function.update s.files job.tmpPath
        ((s.files job.tmpPath).map fun old => old ++ accepted)
      phase := job.writeOn (written + accepted.length) }
  | .writing _, .error detail => { s with phase := .abandoning (.write detail) }
  | .syncing, .ok _ => { s with phase := .closing }
  | .syncing, .error detail => { s with phase := .abandoning (.fsync detail) }
  | .closing, .ok _ => { s with phase := .replacing }
  | .closing, .error detail => { s with phase := .unlinking (.close detail) }
  | .replacing, .ok _ =>
    { s with
      files := Function.update (Function.update s.files job.path (s.files job.tmpPath))
        job.tmpPath none
      phase := .syncingDirectory }
  | .replacing, .error detail => { s with phase := .unlinking (.rename detail) }
  | .abandoning fault, _ => { s with phase := .unlinking fault }
  | .unlinking fault, _ =>
    { s with
      files := Function.update s.files job.tmpPath none
      phase := .finished (.error fault.message) }
  -- What becomes of the directory is not looked at.
  | .syncingDirectory, _ => { s with phase := .finished (.ok ()), valid := true }
  | .finished _, _ => s

/-- The system calls of a save, as they return. -/
def run (s : SaveState) (results : List SysResult) : SaveState := results.foldl job.step s

/-! ### The files in each phase -/

/-- The files with the image in its place and no temporary file. -/
def placed (start : FileSystem) : FileSystem :=
  Function.update (Function.update start job.path (some job.image)) job.tmpPath none

theorem placed_path (start : FileSystem) : job.placed start job.path = some job.image := by
  rw [placed, Function.update_of_ne job.tmpPath_ne.symm, Function.update_self]

theorem placed_tmpPath (start : FileSystem) : job.placed start job.tmpPath = none :=
  Function.update_self ..

theorem placed_of_ne (start : FileSystem) {p : String} (htmp : p ≠ job.tmpPath)
    (hpath : p ≠ job.path) : job.placed start p = start p := by
  rw [placed, Function.update_of_ne htmp, Function.update_of_ne hpath]

/-- What a save has made of the files and of the flag that it started with. -/
def Saved (start : FileSystem) (valid : Bool) (s : SaveState) : Prop :=
  match s.phase with
  | .opening => s.files = start ∧ s.valid = valid
  | .writing written =>
    written < job.image.length ∧
      s.files = Function.update start job.tmpPath (some (job.image.take written)) ∧
      s.valid = valid
  | .syncing | .closing | .replacing =>
    s.files = Function.update start job.tmpPath (some job.image) ∧ s.valid = valid
  | .abandoning _ | .unlinking _ =>
    (∃ part, s.files = Function.update start job.tmpPath (some part)) ∧ s.valid = valid
  | .syncingDirectory => s.files = job.placed start ∧ s.valid = valid
  | .finished (.ok _) => s.files = job.placed start ∧ s.valid = true
  | .finished (.error msg) =>
    (s.files = start ∨ s.files = Function.update start job.tmpPath none) ∧ s.valid = valid ∧
      ∃ fault : SaveFault, msg = fault.message

variable {job} {start : FileSystem} {valid : Bool} {s : SaveState}

theorem saved_writeOn {written : Nat} {files : FileSystem}
    (hfiles : files = Function.update start job.tmpPath (some (job.image.take written))) :
    job.Saved start valid ⟨files, job.writeOn written, valid⟩ := by
  unfold writeOn
  split_ifs with hmore
  · exact ⟨hmore, hfiles, rfl⟩
  · rw [List.take_of_length_le (Nat.not_lt.mp hmore)] at hfiles
    exact ⟨hfiles, rfl⟩

theorem Saved.step (h : job.Saved start valid s) (r : SysResult) :
    job.Saved start valid (job.step s r) := by
  obtain ⟨files, phase, flag⟩ := s
  cases phase with
  | opening =>
    obtain ⟨rfl, rfl⟩ := h
    cases r with
    | ok n => exact saved_writeOn rfl
    | error detail => exact ⟨.inl rfl, rfl, _, rfl⟩
  | writing written =>
    obtain ⟨-, rfl, rfl⟩ := h
    cases r with
    | ok n =>
      -- A `write` may accept a part only; the file is the beginning of the image either way.
      apply saved_writeOn
      dsimp only
      rw [Function.update_idem, Function.update_self, Option.map_some,
        CS.take_append_take_drop]
    | error detail => exact ⟨⟨_, rfl⟩, rfl⟩
  | syncing | closing =>
    obtain ⟨rfl, rfl⟩ := h
    cases r with
    | ok n => exact ⟨rfl, rfl⟩
    | error detail => exact ⟨⟨_, rfl⟩, rfl⟩
  | replacing =>
    obtain ⟨rfl, rfl⟩ := h
    cases r with
    | ok n =>
      -- The image leaves the temporary name and is under that of the vault, in one step.
      refine ⟨?_, rfl⟩
      dsimp only [SaveJob.step]
      rw [Function.update_self, Function.update_comm job.tmpPath_ne, Function.update_idem,
        placed]
    | error detail => exact ⟨⟨_, rfl⟩, rfl⟩
  | abandoning fault => exact h
  | unlinking fault =>
    obtain ⟨⟨part, rfl⟩, rfl⟩ := h
    exact ⟨.inr (Function.update_idem _ _ _), rfl, fault, rfl⟩
  | syncingDirectory => exact ⟨h.1, rfl⟩
  | finished result => exact h

theorem Saved.run (h : job.Saved start valid s) (results : List SysResult) :
    job.Saved start valid (job.run s results) := by
  induction results generalizing s with
  | nil => exact h
  | cons r results ih => exact ih (h.step r)

theorem saved_opening : job.Saved start valid ⟨start, .opening, valid⟩ := ⟨rfl, rfl⟩

theorem Saved.of_error {msg : String} (h : job.Saved start valid s)
    (hphase : s.phase = .finished (.error msg)) :
    (s.files = start ∨ s.files = Function.update start job.tmpPath none) ∧ s.valid = valid ∧
      ∃ fault : SaveFault, msg = fault.message := by
  simpa only [Saved, hphase] using h

theorem Saved.of_ok (h : job.Saved start valid s) (hphase : s.phase = .finished (.ok ())) :
    s.files = job.placed start ∧ s.valid = true := by
  simpa only [Saved, hphase] using h

/-- Apart from the temporary file a reader finds the old files, or the image in its place. -/
theorem Saved.files_eq (h : job.Saved start valid s) :
    (∀ p, p ≠ job.tmpPath → s.files p = start p) ∨ s.files = job.placed start := by
  obtain ⟨files, phase, flag⟩ := s
  have hkept (content : Option Bytes) (p : String) (hp : p ≠ job.tmpPath) :
      Function.update start job.tmpPath content p = start p := Function.update_of_ne hp _ _
  cases phase with
  | opening =>
    obtain ⟨rfl, -⟩ := h
    exact .inl fun _ _ => rfl
  | writing written =>
    obtain ⟨-, rfl, -⟩ := h
    exact .inl (hkept _)
  | syncing | closing | replacing =>
    obtain ⟨rfl, -⟩ := h
    exact .inl (hkept _)
  | abandoning fault | unlinking fault =>
    obtain ⟨⟨part, rfl⟩, -⟩ := h
    exact .inl (hkept _)
  | syncingDirectory => exact .inr h.1
  | finished result =>
    cases result with
    | ok _ => exact .inr h.1
    | error msg =>
      obtain ⟨rfl | rfl, -⟩ := h
      · exact .inl fun _ _ => rfl
      · exact .inl (hkept _)

/-! ### Progress -/

/-- A bound on the system calls to come, if every `write` accepts something. -/
def remaining (job : SaveJob) : SavePhase → Nat
  | .opening => job.image.length + 6
  | .writing written => job.image.length - written + 5
  | .syncing => 5
  | .closing => 4
  | .replacing => 3
  | .abandoning _ => 2
  | .unlinking _ | .syncingDirectory => 1
  | .finished _ => 0

theorem remaining_writeOn (written : Nat) :
    job.remaining (job.writeOn written) ≤ job.image.length - written + 5 := by
  unfold writeOn
  split_ifs with hmore
  · exact Nat.le_refl _
  · exact Nat.le_add_left 5 _

theorem Saved.remaining_step (h : job.Saved start valid s) {r : SysResult} (hr : r.Progresses) :
    job.remaining (job.step s r).phase ≤ job.remaining s.phase - 1 := by
  obtain ⟨files, phase, flag⟩ := s
  cases phase with
  | opening =>
    cases r with
    | ok n => exact (remaining_writeOn 0).trans (by simp only [remaining]; omega)
    | error detail => exact Nat.zero_le _
  | writing written =>
    cases r with
    | ok n =>
      have hmore : written < job.image.length := h.1
      have hn : 1 ≤ n := hr
      refine (remaining_writeOn _).trans ?_
      simp only [remaining, List.length_take, List.length_drop]
      omega
    | error detail => simp only [remaining, SaveJob.step]; omega
  | syncing | closing | replacing =>
    cases r <;> simp only [remaining, SaveJob.step] <;> omega
  | abandoning fault => exact Nat.le_refl _
  | unlinking fault | syncingDirectory => exact Nat.zero_le _
  | finished result => exact Nat.zero_le _

theorem Saved.remaining_run (h : job.Saved start valid s) {results : List SysResult}
    (hresults : ∀ r ∈ results, r.Progresses) :
    job.remaining (job.run s results).phase ≤ job.remaining s.phase - results.length := by
  induction results generalizing s with
  | nil => exact Nat.le_refl _
  | cons r results ih =>
    obtain ⟨hr, hrest⟩ := List.forall_mem_cons.mp hresults
    have hfirst := h.remaining_step hr
    have hlater := ih (h.step r) hrest
    change job.remaining (job.run (job.step s r) results).phase ≤ _
    rw [List.length_cons]
    omega

end SaveJob

namespace Vault

variable (c : VaultCrypto) (v : Vault)

/-- The name of the temporary file. -/
def tmpPath (path : String) (pid : Int) (seq : UInt32) : String :=
  path ++ (".tmp" ++ toString pid ++ "-" ++ toString seq)

theorem tmpPath_ne (path : String) (pid : Int) (seq : UInt32) : tmpPath path pid seq ≠ path := by
  intro heq
  have hlength := congrArg String.length heq
  have hsuffix : (".tmp" : String).length = 4 := rfl
  simp only [tmpPath, String.length_append, hsuffix] at hlength
  omega

/-- The image, its place and the temporary file beside it. -/
def saveJob (path : String) (pid : Int) (seq : UInt32) (image : Bytes) : SaveJob where
  image := image
  path := path
  tmpPath := tmpPath path pid seq
  tmpPath_ne := tmpPath_ne path pid seq

/-- A save, as far as its system calls have returned. Without an image there are none. -/
def runSave (salt : Fin 16 → UInt8) (nonce : Fin 12 → UInt8) (payload : Bytes) (pid : Int)
    (seq : UInt32) (files : FileSystem) (results : List SysResult) : SaveState :=
  match saveImage c v.password salt nonce payload with
  | .error e => ⟨files, .finished (.error e), v.valid⟩
  | .ok image => (saveJob v.path pid seq image).run ⟨files, .opening, v.valid⟩ results

/-- A save that throws changes nothing, one that returns has put the whole new image in place, and
at every point a reader sees the old file or the new one. -/
structure SavesWhole (salt : Fin 16 → UInt8) (nonce : Fin 12 → UInt8) (payload : Bytes) (pid : Int)
    (seq : UInt32) (files : FileSystem) (s : SaveState) : Prop where
  thrown : ∀ msg, s.phase = .finished (.error msg) →
    (∀ p, p ≠ tmpPath v.path pid seq → s.files p = files p) ∧ s.valid = v.valid ∧
      -- Where the temporary file could not be created it is what it was.
      (s.files (tmpPath v.path pid seq) = none ∨
        s.files (tmpPath v.path pid seq) = files (tmpPath v.path pid seq))
  returned : s.phase = .finished (.ok ()) →
    (∃ image, saveImage c v.password salt nonce payload = .ok image ∧
      s.files v.path = some image) ∧
    s.valid = true ∧ s.files (tmpPath v.path pid seq) = none ∧
      ∀ p, p ≠ tmpPath v.path pid seq → p ≠ v.path → s.files p = files p
  reader : s.files v.path = files v.path ∨
    ∃ image, saveImage c v.password salt nonce payload = .ok image ∧ s.files v.path = some image

section Save

variable {c v} {salt : Fin 16 → UInt8} {nonce : Fin 12 → UInt8} {payload : Bytes} {pid : Int}
  {seq : UInt32} {files : FileSystem} {results : List SysResult}

theorem runSave_of_error {e : String}
    (himage : saveImage c v.password salt nonce payload = .error e) :
    v.runSave c salt nonce payload pid seq files results =
      ⟨files, .finished (.error e), v.valid⟩ := by
  rw [runSave, himage]

theorem runSave_of_ok {image : Bytes}
    (himage : saveImage c v.password salt nonce payload = .ok image) :
    v.runSave c salt nonce payload pid seq files results =
      (saveJob v.path pid seq image).run ⟨files, .opening, v.valid⟩ results := by
  rw [runSave, himage]

theorem saved_runSave {image : Bytes}
    (himage : saveImage c v.password salt nonce payload = .ok image) :
    (saveJob v.path pid seq image).Saved files v.valid
      (v.runSave c salt nonce payload pid seq files results) := by
  rw [runSave_of_ok himage]
  exact SaveJob.saved_opening.run results

/-- A save that is over has done to the vault and its file what `save` says. -/
theorem runSave_eq_save {result : Except String Unit}
    (hover : (v.runSave c salt nonce payload pid seq files results).phase = .finished result) :
    let s := v.runSave c salt nonce payload pid seq files results
    ∃ fault, v.save c salt nonce fault payload (files v.path) =
      (result, { v with valid := s.valid }, s.files v.path) := by
  dsimp only
  cases himage : saveImage c v.password salt nonce payload with
  | error e =>
    rw [runSave_of_error himage] at hover ⊢
    cases hover
    refine ⟨none, ?_⟩
    simp only [save, himage]
  | ok image =>
    have hsaved := @saved_runSave c v salt nonce payload pid seq files results image himage
    cases result with
    | ok _ =>
      obtain ⟨hfiles, hvalid⟩ := hsaved.of_ok hover
      refine ⟨none, ?_⟩
      have hpath := SaveJob.placed_path (saveJob v.path pid seq image) files
      simp only [save, himage, hvalid, hfiles]
      exact congrArg (fun file => (_, _, file)) hpath.symm
    | error msg =>
      obtain ⟨hfiles, hvalid, fault, rfl⟩ := hsaved.of_error hover
      refine ⟨some fault, ?_⟩
      have hpath : (v.runSave c salt nonce payload pid seq files results).files v.path =
          files v.path := by
        rcases hfiles with hfiles | hfiles
        · rw [hfiles]
        · rw [hfiles]
          exact Function.update_of_ne (tmpPath_ne v.path pid seq).symm _ _
      simp only [save, himage, hvalid, hpath]

theorem save_plain : ∃ fault, (save plain { path := "v", password := [1] } (fun _ => 0)
      (fun _ => 0) fault [7] none).1 = .ok () := by
  obtain ⟨fault, h⟩ := @runSave_eq_save plain { path := "v", password := [1] } (fun _ => 0)
    (fun _ => 0) [7] 1 0 (fun _ => none) (.replicate 6 (.ok 99)) (.ok ()) rfl
  exact ⟨fault, congrArg Prod.fst h⟩

end Save

/-- Every save is whole, whatever its system calls return. -/
theorem savesWhole (c : VaultCrypto) (v : Vault) (salt : Fin 16 → UInt8) (nonce : Fin 12 → UInt8)
    (payload : Bytes) (pid : Int) (seq : UInt32) (files : FileSystem) (results : List SysResult) :
    v.SavesWhole c salt nonce payload pid seq files
      (v.runSave c salt nonce payload pid seq files results) := by
  cases himage : saveImage c v.password salt nonce payload with
  | error e =>
    rw [runSave_of_error himage]
    refine ⟨fun _ _ => ⟨fun _ _ => rfl, rfl, .inr rfl⟩, fun h => ?_, .inl rfl⟩
    cases h
  | ok image =>
    have hsaved := @saved_runSave c v salt nonce payload pid seq files results image himage
    refine ⟨fun msg hphase => ?_, fun hphase => ?_, ?_⟩
    · obtain ⟨hfiles, hvalid, -⟩ := hsaved.of_error hphase
      rcases hfiles with hfiles | hfiles
      · exact ⟨fun p _ => congrFun hfiles p, hvalid, .inr (congrFun hfiles _)⟩
      · rw [hfiles]
        exact ⟨fun p hp => Function.update_of_ne hp _ _, hvalid,
          .inl (Function.update_self ..)⟩
    · obtain ⟨hfiles, hvalid⟩ := hsaved.of_ok hphase
      rw [hfiles]
      exact ⟨⟨image, himage, SaveJob.placed_path _ files⟩, hvalid, SaveJob.placed_tmpPath _ files,
        fun p hp hpath => SaveJob.placed_of_ne _ files hp hpath⟩
    · rcases hsaved.files_eq with hold | hnew
      · exact .inl (hold v.path (tmpPath_ne v.path pid seq).symm)
      · rw [hnew]
        exact .inr ⟨image, himage, SaveJob.placed_path _ files⟩

end Vault

end VirtualHsm
