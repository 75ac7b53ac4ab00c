import VirtualHsm.Firmware.Commands

/-!
# What a signature of the firmware covers

A client starts an upload, sends chunks and asks for a signature. The hash that is signed is that of
the file on the card, and signing removes the file. Two things keep it from being the hash of what
the client has sent since the last start: an empty file is hashed as one zero byte, and chunks that
follow a signature begin a new file without a start.
-/

namespace VirtualHsm.Firmware

open CS

/-! ### Uploads -/

/-- What was accepted under a file name since its upload was started, and whether a request to sign
has removed it from the card since. -/
structure Upload where
  bytes : Bytes := []
  removed : Bool := false
  deriving DecidableEq, Repr

/-- The answers of `handle_sign` after which the upload is gone. -/
def Reply.removesUpload : Reply → Bool
  | .signed .. | .error .hashFailed | .error .signingFailed => true
  | _ => false

section Uploads

variable (pk : PkApi) (config : SignerConfig)

/-- The upload under the name `f` after a request and its answer. -/
def Upload.next (f : Bytes) (u : Upload) (c : CmdCall) (reply : Reply) : Upload :=
  match readCommand c.root, reply with
  | .ok (.uploadStart _), .uploadStarted g => if g = f then {} else u
  | .ok (.uploadChunk _ (some text)), .chunkWritten g _ _ =>
    if g = f then { u with bytes := u.bytes ++ (decodeChunk pk text).getD [] } else u
  | .ok (.sign _ (some g)), reply =>
    if g = f ∧ reply.removesUpload then { u with removed := true } else u
  | _, _ => u

def uploadOf (f : Bytes) (st : Signer) (calls : List CmdCall) : Upload :=
  (calls.zip (answers (Signer.step pk config) st calls)).foldl (fun u x => u.next pk f x.1 x.2) {}

/-- A request to sign the file `f` after others, if it succeeds, signs and returns the hash of what
was uploaded, and that is no more than an upload may be. -/
def SignsUpload (st : Signer) (calls : List CmdCall) (f : Bytes) (c : CmdCall) : Prop :=
  ∀ userId user hashHex alg sig, readCommand c.root = .ok (.sign userId (some f)) →
    (Signer.step pk config (run (Signer.step pk config) st calls) c).1 =
        .signed user f hashHex alg sig →
      hashHex = hexText (pk.sha256 (uploadOf pk config f st calls).bytes) ∧
      (∃ key, signHash pk c.env key (pk.sha256 (uploadOf pk config f st calls).bytes) = some sig) ∧
      (uploadOf pk config f st calls).bytes.length ≤ maxUploadBytes

end Uploads

variable {pk : PkApi} {config : SignerConfig} {st : Signer} {env : CmdEnv} {f : Bytes} {u : Upload}
  {c : CmdCall}

theorem uploadOf_concat (calls : List CmdCall) (c : CmdCall) :
    uploadOf pk config f st (calls ++ [c]) =
      (uploadOf pk config f st calls).next pk f c
        (Signer.step pk config (run (Signer.step pk config) st calls) c).1 := by
  rw [uploadOf, answers_append, List.zip_append (length_answers _ _ _).symm, List.foldl_append]
  rfl

/-- The file on the card is no larger than an upload may be, and it is the upload unless that was
removed. -/
structure OnCard (u : Upload) (content : Option Bytes) : Prop where
  length_le : (content.getD []).length ≤ maxUploadBytes
  intact : u.removed = false → content.getD [] = u.bytes

/-! ### What the handlers do to uploads -/

theorem validateStringComponent_eq_some {item : Option Bytes} {maxLen : Nat} {s : Bytes}
    (h : validateStringComponent item maxLen = some s) : item = some s :=
  (Option.filter_eq_some_iff.mp h).1

theorem uploads_handleCreateKey (userId : Option Bytes) (overwrite : Bool) :
    (handleCreateKey pk config st env userId overwrite).2.uploads = st.uploads := by
  -- Whatever the handler answers, it writes at most a key and the audit trail.
  simp only [handleCreateKey]
  repeat' split
  all_goals rfl

theorem uploads_handleUploadEnd (filename : Option Bytes) :
    (handleUploadEnd st filename).2.uploads = st.uploads := by
  unfold handleUploadEnd
  repeat' split
  all_goals rfl

/-- A start that succeeds empties the file. -/
theorem onCard_uploadStart (h : OnCard u (st.uploads f)) {filename : Option Bytes}
    (hcmd : readCommand c.root = .ok (.uploadStart filename)) :
    OnCard (u.next pk f c (handleUploadStart st env filename).1)
      ((handleUploadStart st env filename).2.uploads f) := by
  unfold handleUploadStart Upload.next
  rw [hcmd]
  cases validateStringComponent filename filenameMaxLen with
  | none => exact h
  | some g =>
    by_cases hopens : env.opens = false
    · simp only [if_pos hopens]
      exact h
    · simp only [if_neg hopens]
      by_cases hg : g = f
      · rw [if_pos hg, hg, Function.update_self]
        exact ⟨Nat.zero_le _, fun _ => rfl⟩
      · rw [if_neg hg, Function.update_of_ne (Ne.symm hg)]
        exact h

/-- A chunk that is accepted goes behind what is there, and there is room for it. -/
theorem onCard_uploadChunk (h : OnCard u (st.uploads f)) (henv : env.FilesWork)
    {filename dataBase64 : Option Bytes}
    (hcmd : readCommand c.root = .ok (.uploadChunk filename dataBase64)) :
    OnCard (u.next pk f c (handleUploadChunk pk st env filename dataBase64).1)
      ((handleUploadChunk pk st env filename dataBase64).2.uploads f) := by
  unfold handleUploadChunk Upload.next
  rw [hcmd]
  cases validateStringComponent filename filenameMaxLen with
  | none => cases dataBase64 <;> exact h
  | some g =>
    cases dataBase64 with
    | none => exact h
    | some text =>
      cases hdecoded : decodeChunk pk text with
      | none => simpa only [hdecoded] using h
      | some decoded =>
        simp only [hdecoded]
        by_cases hlarge : maxUploadBytes ≤ ((st.uploads g).getD []).length ∨
            maxUploadBytes - ((st.uploads g).getD []).length < decoded.length
        · simp only [if_pos hlarge]
          exact h
        · simp only [if_neg hlarge, henv.opens, henv.shortWrite, Bool.true_eq_false, if_false]
          by_cases hg : g = f
          · subst hg
            rw [if_pos rfl, Function.update_self]
            refine ⟨?_, fun hintact => ?_⟩
            · rw [Option.getD_some, List.length_append]
              omega
            · simp only [hdecoded, Option.getD_some, h.intact hintact]
          · rw [if_neg hg, Function.update_of_ne (Ne.symm hg)]
            exact h

theorem loadKeyForUser_error {userId : Bytes} {code : ErrorCode}
    (h : loadKeyForUser pk st env userId = .error code) :
    (Reply.error code).removesUpload = false := by
  unfold loadKeyForUser at h
  split at h
  · obtain rfl := Except.error.inj h
    rfl
  · split at h
    · obtain rfl := Except.error.inj h
      rfl
    · cases h

/-- Signing leaves the files, or it has read the upload, and removes it. -/
theorem signFile_cases (user g : Bytes) :
    (signFile pk config st env user g).2.uploads = st.uploads ∧
        (signFile pk config st env user g).1.removesUpload = false ∨
      ∃ buf, readSdFile (st.uploads g) env.fileReads = some buf ∧
        (signFile pk config st env user g).1.removesUpload = true ∧
        (signFile pk config st env user g).2.uploads = (st.unlink env g).uploads ∧
        ∀ user' f hashHex alg sig,
          (signFile pk config st env user g).1 = .signed user' f hashHex alg sig →
            hashHex = hexText (pk.sha256 buf) ∧
              ∃ key, signHash pk env key (pk.sha256 buf) = some sig := by
  unfold signFile
  cases hkey : loadKeyForUser pk st env user with
  | error code => exact .inl ⟨rfl, loadKeyForUser_error hkey⟩
  | ok key =>
    cases hbuf : readSdFile (st.uploads g) env.fileReads with
    | none => exact .inl ⟨rfl, rfl⟩
    | some buf =>
      refine .inr ⟨buf, rfl, ?_⟩
      by_cases hhash : env.hashes = false
      · simp only [if_pos hhash]
        exact ⟨rfl, trivial, nofun⟩
      · simp only [if_neg hhash]
        cases hsig : signHash pk env key (pk.sha256 buf) with
        | none => exact ⟨rfl, rfl, nofun⟩
        | some sig =>
          refine ⟨rfl, rfl, ?_⟩
          rintro _ _ _ _ _ ⟨⟩
          exact ⟨rfl, key, hsig⟩

/-- The same of a request. -/
theorem handleSign_cases (userId filename : Option Bytes) :
    (handleSign pk config st env userId filename).2.uploads = st.uploads ∧
        (handleSign pk config st env userId filename).1.removesUpload = false ∨
      ∃ g buf, filename = some g ∧ readSdFile (st.uploads g) env.fileReads = some buf ∧
        (handleSign pk config st env userId filename).1.removesUpload = true ∧
        (handleSign pk config st env userId filename).2.uploads = (st.unlink env g).uploads ∧
        ∀ user f hashHex alg sig,
          (handleSign pk config st env userId filename).1 = .signed user f hashHex alg sig →
            hashHex = hexText (pk.sha256 buf) ∧
              ∃ key, signHash pk env key (pk.sha256 buf) = some sig := by
  unfold handleSign
  cases validateStringComponent userId userIdMaxLen with
  | none => exact .inl ⟨rfl, rfl⟩
  | some user =>
    cases hname : validateStringComponent filename filenameMaxLen with
    | none => exact .inl ⟨rfl, rfl⟩
    | some g =>
      simp only
      split_ifs with hlimited
      · exact .inl ⟨rfl, rfl⟩
      · rcases @signFile_cases pk config
          { st with limits :=
            (userSignRateLimited config.signLimitPerMin st.limits user env.now).2 }
          env user g with hstays | ⟨buf, hbuf, hremoves, hfiles, hcovers⟩
        · exact .inl hstays
        · refine .inr ⟨g, buf, validateStringComponent_eq_some hname, hbuf, hremoves, ?_, hcovers⟩
          rw [hfiles]
          -- The budgets do not matter for the files.
          unfold Signer.unlink
          split_ifs <;> rfl

theorem uploads_unlink (h : env.unlinks = true) (g : Bytes) :
    (st.unlink env g).uploads = Function.update st.uploads g none := by
  rw [Signer.unlink, if_pos h]

/-- A request to sign removes the file that it reads, or leaves all of them. -/
theorem onCard_sign (h : OnCard u (st.uploads f)) (henv : env.FilesWork)
    {userId filename : Option Bytes} (hcmd : readCommand c.root = .ok (.sign userId filename)) :
    OnCard (u.next pk f c (handleSign pk config st env userId filename).1)
      ((handleSign pk config st env userId filename).2.uploads f) := by
  have hcases := @handleSign_cases pk config st env userId filename
  generalize handleSign pk config st env userId filename = r at hcases ⊢
  rcases hcases with ⟨hfiles, hstays⟩ | ⟨g, buf, rfl, -, hremoves, hfiles, -⟩
  · have hnext : u.next pk f c r.1 = u := by
      unfold Upload.next
      rw [hcmd]
      cases filename with
      | none => rfl
      | some g => simp only [hstays, Bool.false_eq_true, and_false, if_false]
    rw [hfiles, hnext]
    exact h
  · have hnext : u.next pk f c r.1 = if g = f then { u with removed := true } else u := by
      unfold Upload.next
      rw [hcmd]
      simp only [hremoves, and_true]
    rw [hfiles, hnext, uploads_unlink henv.unlinks]
    by_cases hg : g = f
    · rw [if_pos hg, hg, Function.update_self]
      exact ⟨Nat.zero_le _, nofun⟩
    · rw [if_neg hg, Function.update_of_ne (Ne.symm hg)]
      exact h

theorem onCard_step (h : OnCard u (st.uploads f)) (henv : c.env.FilesWork) :
    OnCard (u.next pk f c (Signer.step pk config st c).1)
      ((Signer.step pk config st c).2.uploads f) := by
  unfold Signer.step handleRequest
  cases hcmd : readCommand c.root with
  | error code =>
    have hnext : u.next pk f c (.error code) = u := by
      unfold Upload.next
      rw [hcmd]
    simp only [hnext]
    exact h
  | ok cmd =>
    cases cmd with
    | createKey | uploadEnd =>
      have hnext (reply : Reply) : u.next pk f c reply = u := by
        unfold Upload.next
        rw [hcmd]
      simp only [handleCommand, uploads_handleCreateKey, uploads_handleUploadEnd, hnext]
      exact h
    | uploadStart filename => exact onCard_uploadStart h hcmd
    | uploadChunk filename dataBase64 => exact onCard_uploadChunk h henv hcmd
    | sign userId filename => exact onCard_sign h henv hcmd

/-- From a device without uploads on, the file is what was uploaded, unless it was removed. -/
theorem onCard_run (hst : st.uploads f = none) (calls : List CmdCall)
    (henv : ∀ c ∈ calls, c.env.FilesWork) :
    OnCard (uploadOf pk config f st calls)
      ((run (Signer.step pk config) st calls).uploads f) := by
  induction calls using List.reverseRecOn with
  | nil =>
    rw [run_nil, hst]
    exact ⟨Nat.zero_le _, fun _ => rfl⟩
  | append_singleton calls c ih =>
    rw [uploadOf_concat, run_append]
    exact onCard_step (ih fun d hd => henv d (List.mem_append_left [c] hd)) (henv c (by simp))

/-! ### Signatures -/

theorem step_of_sign {userId filename : Option Bytes}
    (hcmd : readCommand c.root = .ok (.sign userId filename)) :
    Signer.step pk config st c = handleSign pk config st c.env userId filename := by
  rw [Signer.step, handleRequest, hcmd]
  rfl

theorem eq_of_readSdFile {content : Option Bytes} {reads : Bool} {buf : Bytes}
    (h : readSdFile content reads = some buf) (hne : content.getD [] ≠ []) :
    buf = content.getD [] := by
  cases content with
  | none => cases h
  | some bytes =>
    have hbytes : bytes ≠ [] := hne
    simp only [readSdFile, if_neg hbytes] at h
    split_ifs at h
    exact (Option.some.inj h).symm

/-- A signature is over the hash of the uploaded bytes when there are some and no request to sign
has removed them since the upload was started. -/
theorem signsUpload_of_intact (pk : PkApi) (config : SignerConfig) (st : Signer) (f : Bytes)
    (hst : st.uploads f = none) (calls : List CmdCall) (henv : ∀ c ∈ calls, c.env.FilesWork)
    (hremoved : (uploadOf pk config f st calls).removed = false)
    (hbytes : (uploadOf pk config f st calls).bytes ≠ []) (c : CmdCall) :
    SignsUpload pk config st calls f c := by
  intro userId user hashHex alg sig hcmd hsigned
  obtain ⟨hlength, hintact⟩ := @onCard_run pk config st f hst calls henv
  specialize hintact hremoved
  rw [hintact] at hlength
  rw [step_of_sign hcmd] at hsigned
  rcases @handleSign_cases pk config (run (Signer.step pk config) st calls) c.env userId (some f)
    with ⟨-, hstays⟩ | ⟨g, buf, hg, hbuf, -, -, hcovers⟩
  · rw [hsigned] at hstays
    cases hstays
  · cases hg
    obtain ⟨hhash, hsig⟩ := hcovers user f hashHex alg sig hsigned
    -- The bytes that are hashed are those of the file, as there are some.
    obtain rfl : buf = (uploadOf pk config f st calls).bytes := by
      rw [← hintact] at hbytes ⊢
      exact eq_of_readSdFile hbuf hbytes
    exact ⟨hhash, hsig, hlength⟩

/-! ### A device -/

/-- A library with one key, whose hashes and signatures show what went into them. -/
def PkApi.plain : PkApi where
  Key := Unit
  sha256 := id
  pkType _ := .eckey
  genKey _ := some ()
  writeKeyPem _ := some [1]
  writePubkeyPem _ := some [2]
  parseKey _ := some ()
  pkSign _ _ hash := some hash
  base64Decode := some

/-- A device with a key for every user and nothing uploaded. -/
def Signer.started : Signer := ⟨fun _ => none, fun _ => some [1], .empty, 0, .fresh⟩

def SignerConfig.default : SignerConfig := ⟨⟨10, by decide⟩, true⟩

/-- A request with string fields. -/
def request (fields : List (String × String)) : CmdCall :=
  ⟨some (.obj (fields.map fun x => (x.1, .str x.2))), {}⟩

def startDoc : CmdCall := request [("cmd", "uploadStart"), ("filename", "doc")]

def chunkDoc (text : String) : CmdCall :=
  request [("cmd", "uploadChunk"), ("filename", "doc"), ("dataBase64", text)]

def signDoc : CmdCall := request [("cmd", "sign"), ("userId", "bob"), ("filename", "doc")]

def doc : Bytes := "doc".toUTF8.toList

theorem filesWork_request (fields : List (String × String)) : (request fields).env.FilesWork :=
  ⟨rfl, rfl, rfl, rfl⟩

/-- Two chunks. -/
theorem signsUpload_abcd :
    (Signer.step .plain .default
        (run (Signer.step .plain .default) .started [startDoc, chunkDoc "ab", chunkDoc "cd"])
        signDoc).1 = .signed "bob".toUTF8.toList doc "61626364" "ECDSA-SHA256" "YWJjZA==" ∧
      SignsUpload .plain .default .started [startDoc, chunkDoc "ab", chunkDoc "cd"] doc signDoc :=
  ⟨by decide +kernel,
    signsUpload_of_intact .plain .default .started doc rfl _
      (by simp [startDoc, chunkDoc, filesWork_request])
      (by decide +kernel) (by decide +kernel) signDoc⟩

/-- An upload without chunks is signed as one zero byte. -/
theorem not_signsUpload_empty :
    (uploadOf .plain .default doc .started [startDoc]).bytes = [] ∧
      (Signer.step .plain .default (run (Signer.step .plain .default) .started [startDoc])
        signDoc).1 = .signed "bob".toUTF8.toList doc "00" "ECDSA-SHA256" "AA==" ∧
      ¬ SignsUpload .plain .default .started [startDoc] doc signDoc := by
  have hsigned : (Signer.step .plain .default (run (Signer.step .plain .default) .started [startDoc])
      signDoc).1 = .signed "bob".toUTF8.toList doc "00" "ECDSA-SHA256" "AA==" := by decide +kernel
  refine ⟨by decide +kernel, hsigned, fun h => ?_⟩
  have hcmd : readCommand signDoc.root = .ok (.sign (some "bob".toUTF8.toList) (some doc)) := by
    decide +kernel
  have hhash := (h _ _ _ _ _ hcmd hsigned).1
  revert hhash
  decide +kernel

end VirtualHsm.Firmware
