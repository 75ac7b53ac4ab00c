import Mathlib.Data.List.Perm.Subperm
import VirtualHsm.CS.Run
import VirtualHsm.Ledger.KeySpace

/-!
# The quorum of attestations

A policy can ask for a number of attestations and list the signers it accepts. The number is meant
to count different signers from the list. The contract counts the attestations it has collected:
one signer may have several of different types, a signer is compared with the policy in force when
they attest and not with a later one, and a record can be stored over a policy.
-/

namespace VirtualHsm.SignatureLedger

/-- The ledger before any transaction. -/
def genesis : State := fun _ => none

/-! ### Histories -/

/-- The client attests the key. -/
def AttestedBy (keyId client : String) (st : State) (a : Tx × Call) : Prop :=
  clientID a.1 = .ok client ∧ (∃ type signature, a.2 = .submitAttestation keyId type signature) ∧
    ∃ st', submit st a.1 a.2 = .ok st'

/-- The policy a transaction publishes for the key. -/
def publishes (keyId : String) (a : Tx × Call) : Option KeyPolicy :=
  match clientID a.1, a.2 with
  | .ok _, .publishKey id policy => if id = keyId then policy else none
  | _, _ => none

/-- The policy that was published last for the key. -/
def lastPublished (keyId : String) (calls : List (Tx × Call)) : Option KeyPolicy :=
  (calls.filterMap (publishes keyId)).getLast?

/-- If the answer is positive under the policy that was published last, then there are as many
different clients that attested the key as the policy asks for, and it lists them all if it lists
any signers. -/
def Quorum (keyId : String) (calls : List (Tx × Call)) : Prop :=
  ∀ p actor mechanism nowMs reason, lastPublished keyId calls = some p →
    verifyPolicy (CS.run step genesis calls) keyId actor mechanism nowMs = .ok (true, reason) →
    ∃ signers : List String, signers.Nodup ∧ p.minAttestations ≤ signers.length ∧
      ∀ s ∈ signers, CS.Occurs step (AttestedBy keyId s) genesis calls ∧
        (p.allowedSigners ≠ [] → s ∈ p.allowedSigners)

/-- No record is stored over a policy, a policy lists the signers that have attested its key unless
it lists none, and a client does not attest a key with two types. -/
def Disciplined (st : State) (a : Tx × Call) : Prop :=
  match a.2 with
  | .recordSignature r .. => ∀ p, st r ≠ some (.policy p)
  | .recordAuditTail .. => True
  | .publishKey keyId policy =>
    ∀ p ∈ policy, ∀ att ∈ attestationsOf st keyId, KeyPolicy.Listed p.allowedSigners att.signer
  | .submitAttestation keyId type _ =>
    ∀ att ∈ attestationsOf st keyId, clientID a.1 = .ok att.signer → att.attestationType = type

theorem lastPublished_append (keyId : String) (calls : List (Tx × Call)) (a : Tx × Call) :
    lastPublished keyId (calls ++ [a]) = (publishes keyId a).or (lastPublished keyId calls) := by
  cases hpub : publishes keyId a with
  | none | some p => simp [lastPublished, List.filterMap_append, hpub]

theorem publishes_of_error {st : State} {a : Tx × Call} {e : String}
    (h : submit st a.1 a.2 = .error e) (keyId : String) : publishes keyId a = none := by
  obtain ⟨tx, call⟩ := a
  cases hclient : clientID tx with
  | error e' => simp [publishes, hclient]
  | ok client =>
    cases call with
    | publishKey id policy =>
      cases policy with
      | none => simp [publishes, hclient]
      | some p => simp [submit, publishKey, hclient, bind, Except.bind, pure, Except.pure] at h
    | recordSignature | recordAuditTail | submitAttestation => simp [publishes, hclient]

/-! ### Accounting -/

/-- The attestations of the key have different signers who made them and whom the policy lists, and
the policy that was published last is the one on the ledger. -/
structure Accounted (keyId : String) (calls : List (Tx × Call)) (st : State) : Prop where
  signers : ((attestationsOf st keyId).map (·.signer)).Nodup
  attested : ∀ att ∈ attestationsOf st keyId,
    CS.Occurs step (AttestedBy keyId att.signer) genesis calls
  published : ∀ p, lastPublished keyId calls = some p → st (policyKey keyId) = some (.policy p)
  listed : ∀ p, st (policyKey keyId) = some (.policy p) →
    ∀ att ∈ attestationsOf st keyId, KeyPolicy.Listed p.allowedSigners att.signer

section Accounted

variable {keyId : String} {calls : List (Tx × Call)} {st st' : State} {a : Tx × Call}

theorem Accounted.start (keyId : String) : Accounted keyId [] genesis where
  signers := List.nodup_nil
  attested _ h := absurd h List.not_mem_nil
  published _ h := by cases h
  listed _ h := by cases h

/-- A transaction that publishes no policy for the key, leaves the one stored alone and adds no
attestation. -/
theorem Accounted.frame (h : Accounted keyId calls st) (hpub : publishes keyId a = none)
    (hpolicy : ∀ p, st' (policyKey keyId) = some (.policy p) ↔
      st (policyKey keyId) = some (.policy p))
    (hatts : (attestationsOf st' keyId).Sublist (attestationsOf st keyId)) :
    Accounted keyId (calls ++ [a]) st' := by
  refine ⟨h.signers.sublist (hatts.map _), ?_, ?_, ?_⟩
  · intro att hatt
    exact (h.attested att (hatts.subset hatt)).append_right [a]
  · intro p hp
    rw [lastPublished_append, hpub, Option.none_or] at hp
    exact (hpolicy p).mpr (h.published p hp)
  · intro p hp att hatt
    exact h.listed p ((hpolicy p).mp hp) att (hatts.subset hatt)

/-- A policy is published for the key, which lists whoever has attested it. -/
theorem Accounted.publish (h : Accounted keyId calls st) {p : KeyPolicy}
    (hpub : publishes keyId a = some p)
    (hlisted : ∀ att ∈ attestationsOf st keyId, KeyPolicy.Listed p.allowedSigners att.signer) :
    Accounted keyId (calls ++ [a]) (putState st (policyKey keyId) (.policy p)) := by
  have hatts : attestationsOf (putState st (policyKey keyId) (.policy p)) keyId =
      attestationsOf st keyId :=
    attestationsOf_congr (putState_of_ne (policyKey_ne_attsKey keyId keyId).symm _)
  refine ⟨hatts ▸ h.signers, ?_, ?_, ?_⟩
  · intro att hatt
    exact (h.attested att (hatts ▸ hatt)).append_right [a]
  · intro q hq
    rw [lastPublished_append, hpub, Option.some_or] at hq
    rw [← Option.some.inj hq]
    exact Function.update_self ..
  · intro q hq att hatt
    have hstored : putState st (policyKey keyId) (.policy p) (policyKey keyId) = some (.policy p) :=
      Function.update_self ..
    obtain rfl : p = q := Value.policy.inj (Option.mem_unique hstored hq)
    exact hlisted att (hatts ▸ hatt)

theorem attestationsOf_put (st : State) (keyId : String) (atts : List Attestation) :
    attestationsOf (putState st (attsKey keyId) (.attestations atts)) keyId = atts := by
  simp [attestationsOf, getAttestations, putState, Value.asAttestations]

/-- The policy as `SubmitAttestation` reads it, when a policy is stored. -/
theorem listed_of_getPolicy {published : Option KeyPolicy} {p : KeyPolicy} {signer : String}
    (hget : getPolicy st keyId = .ok published) (hp : st (policyKey keyId) = some (.policy p))
    (hlisted : KeyPolicy.Listed ((published.map (·.allowedSigners)).getD []) signer) :
    KeyPolicy.Listed p.allowedSigners signer := by
  simp only [getPolicy, hp, Value.asPolicy, Except.ok.injEq] at hget
  subst hget
  exact hlisted

section

variable (h : Accounted keyId calls st) (hpub : publishes keyId a = none)
include h hpub

/-- A client attests the key for the first time. -/
theorem Accounted.attest {att : Attestation}
    (hnew : att.signer ∉ (attestationsOf st keyId).map (·.signer))
    (hdone : CS.Occurs step (AttestedBy keyId att.signer) genesis (calls ++ [a]))
    (hlisted : ∀ p, st (policyKey keyId) = some (.policy p) →
      KeyPolicy.Listed p.allowedSigners att.signer) :
    Accounted keyId (calls ++ [a])
      (putState st (attsKey keyId) (.attestations (attestationsOf st keyId ++ [att]))) := by
  have hpolicy : putState st (attsKey keyId) (.attestations (attestationsOf st keyId ++ [att]))
      (policyKey keyId) = st (policyKey keyId) :=
    putState_of_ne (policyKey_ne_attsKey keyId keyId) _
  constructor
  · rw [attestationsOf_put, List.map_append, List.map_singleton]
    refine List.nodup_append.mpr ⟨h.signers, List.pairwise_singleton _ _, ?_⟩
    intro s hs s' hs' heq
    exact hnew (List.mem_singleton.mp hs' ▸ heq ▸ hs)
  · intro b hb
    rw [attestationsOf_put, List.mem_append, List.mem_singleton] at hb
    rcases hb with hold | rfl
    · exact (h.attested b hold).append_right [a]
    · exact hdone
  · intro p hp
    rw [lastPublished_append, hpub, Option.none_or] at hp
    exact hpolicy.trans (h.published p hp)
  · intro p hp b hb
    rw [hpolicy] at hp
    rw [attestationsOf_put, List.mem_append, List.mem_singleton] at hb
    rcases hb with hold | rfl
    · exact h.listed p hp b hold
    · exact hlisted p hp

/-- A transaction that writes neither under the key of the policy nor under that of the
attestations. -/
theorem Accounted.elsewhere (hpolicy : st' (policyKey keyId) = st (policyKey keyId))
    (hatts : st' (attsKey keyId) = st (attsKey keyId)) : Accounted keyId (calls ++ [a]) st' := by
  apply h.frame hpub
  · intro p
    rw [hpolicy]
  · rw [attestationsOf_congr hatts]

theorem Accounted.otherKey {id : String} {value : Value} (hid : id ≠ keyId) :
    Accounted keyId (calls ++ [a]) (putState st (attsKey id) value) := by
  have hne : attsKey keyId ≠ attsKey id := fun heq => hid (attsKey_injective heq).symm
  exact h.elsewhere hpub (putState_of_ne (policyKey_ne_attsKey keyId id) _) (putState_of_ne hne _)

theorem Accounted.record {r : String} {rec : SignatureRecord} (hr : ∀ p, st r ≠ some (.policy p)) :
    Accounted keyId (calls ++ [a]) (putState st r (.record rec)) := by
  apply h.frame hpub
  · intro p
    by_cases hpolicy : policyKey keyId = r
    · rw [hpolicy]
      exact iff_of_false (by simp [putState]) (hr p)
    · rw [putState_of_ne hpolicy]
  · by_cases hatts : attsKey keyId = r
    · -- The attestations are lost: a record is no list.
      simp [attestationsOf, getAttestations, putState, Value.asAttestations, hatts]
    · rw [attestationsOf_congr (putState_of_ne hatts _)]

end

/-- One transaction that succeeds. -/
theorem Accounted.writes (h : Accounted keyId calls (CS.run step genesis calls))
    (hsubmit : submit (CS.run step genesis calls) a.1 a.2 = .ok st')
    (hok : Disciplined (CS.run step genesis calls) a) : Accounted keyId (calls ++ [a]) st' := by
  obtain ⟨tx, call⟩ := a
  have hdone : ∃ st', submit (CS.run step genesis calls) tx call = .ok st' :=
    ⟨st', hsubmit⟩
  cases submit_writes hsubmit with
  | record r fingerprint digest sig createdAt pqcAlgo sigPqc fingerprintPqc rec =>
    exact h.record (by cases hclient : clientID tx <;> simp [publishes, hclient]) hok
  | auditTail tailHash seq timestamp t =>
    refine h.elsewhere (by cases hclient : clientID tx <;> simp [publishes, hclient]) ?_ ?_
    · rw [putState_of_ne (policyKey_ne_latest keyId), putState_of_ne (policyKey_ne_seq keyId _)]
    · rw [putState_of_ne (attsKey_ne_latest keyId), putState_of_ne (attsKey_ne_seq keyId _)]
  | policy id p client hclient =>
    by_cases hid : id = keyId
    · subst hid
      exact h.publish (by simp [publishes, hclient]) (hok p rfl)
    · have hne : policyKey keyId ≠ policyKey id := fun heq => hid (policyKey_injective heq).symm
      exact h.elsewhere (by simp [publishes, hclient, hid]) (putState_of_ne hne _)
        (putState_of_ne (policyKey_ne_attsKey id keyId).symm _)
  | attested id type signature signer hclient =>
    have hpub : publishes keyId (tx, .submitAttestation id type signature) = none := by
      simp [publishes, hclient]
    by_cases hid : id = keyId
    · subst hid
      -- The list is written back as it was read.
      apply h.frame hpub
      · intro p
        rw [putState_of_ne (policyKey_ne_attsKey id id)]
      · rw [attestationsOf_put]
    · exact h.otherKey hpub hid
  | attests id type signature signer published hclient hpolicy hlisted hnew =>
    have hpub : publishes keyId (tx, .submitAttestation id type signature) = none := by
      simp [publishes, hclient]
    by_cases hid : id = keyId
    · subst hid
      apply h.attest hpub
      · intro hmem
        obtain ⟨att, hatt, hsigner⟩ := List.mem_map.mp hmem
        -- An earlier attestation of this signer would have the same type, so be found.
        exact hnew att hatt hsigner (hok att hatt (hsigner ▸ hclient))
      · exact CS.occurs_last ⟨hclient, ⟨type, signature, rfl⟩, hdone⟩
      · intro p hp
        exact listed_of_getPolicy hpolicy hp hlisted
    · exact h.otherKey hpub hid

theorem Accounted.step (h : Accounted keyId calls (CS.run step genesis calls))
    (hok : Disciplined (CS.run SignatureLedger.step genesis calls) a) :
    Accounted keyId (calls ++ [a])
      (SignatureLedger.step (CS.run SignatureLedger.step genesis calls) a).2 := by
  rw [SignatureLedger.step]
  cases hsubmit : submit (CS.run SignatureLedger.step genesis calls) a.1 a.2 with
  | ok st' => exact h.writes hsubmit hok
  | error e => exact h.elsewhere (publishes_of_error hsubmit keyId) rfl rfl

theorem Accounted.quorum (h : Accounted keyId calls (CS.run SignatureLedger.step genesis calls)) :
    Quorum keyId calls := by
  intro p actor mechanism nowMs reason hp hverify
  obtain ⟨published, hget, hadmits⟩ := verifyPolicy_iff.mp ⟨reason, hverify⟩
  have hstored := h.published p hp
  obtain rfl : some p = published := by
    simpa only [getPolicy, hstored, Value.asPolicy, Except.ok.injEq] using hget
  refine ⟨_, h.signers, ?_, ?_⟩
  · rw [List.length_map]
    exact (hadmits p rfl).quorum
  · intro s hs
    obtain ⟨att, hatt, rfl⟩ := List.mem_map.mp hs
    exact ⟨h.attested att hatt, (h.listed p hstored att hatt).resolve_left⟩

end Accounted

/-- In a run of disciplined transactions a positive answer rests on a quorum of different listed
signers. -/
theorem quorum_of_disciplined {calls : List (Tx × Call)}
    (hcalls : CS.Guarded step Disciplined genesis calls) (keyId : String) : Quorum keyId calls := by
  refine (hcalls.history (Accounted keyId) ?_ (Accounted.start keyId)).quorum
  intro done a h hok
  exact h.step hok

/-! ### Three clients -/

/-- A transaction of the named client. -/
def sentBy (client : String) : Tx := { id := "t", client := some client }

/-- Two listed signers attest. -/
def twoSigners : List (Tx × Call) :=
  [(sentBy "x", .publishKey "k" (some { allowedSigners := ["x", "y"], minAttestations := 2 })),
   (sentBy "x", .submitAttestation "k" "t" ""),
   (sentBy "y", .submitAttestation "k" "t" ""),
   (sentBy "x", .recordSignature "r" "" "" "" none "" "" "")]

theorem quorum_twoSigners :
    Quorum "k" twoSigners ∧
      verifyPolicy (CS.run step genesis twoSigners) "k" "x" "m" 0 = .ok (true, "ok") := by
  have hcalls : CS.Guarded step Disciplined genesis twoSigners := by
    refine ⟨?_, ?_, ?_, ?_, trivial⟩
    · exact nofun
    · exact nofun
    · intro att hatt hclient
      cases hatt with
      | head => rfl
      | tail _ hatt => cases hatt
    · exact nofun
  exact ⟨quorum_of_disciplined hcalls "k", rfl⟩

/-- One signer attests with two types. -/
def twoTypes : List (Tx × Call) :=
  [(sentBy "x", .publishKey "k" (some { minAttestations := 2 })),
   (sentBy "x", .submitAttestation "k" "t" ""),
   (sentBy "x", .submitAttestation "k" "u" "")]

/-- The signer attests before the policy that does not list them. -/
def republished : List (Tx × Call) :=
  [(sentBy "x", .submitAttestation "k" "t" ""),
   (sentBy "x", .publishKey "k" (some { allowedSigners := ["y"], minAttestations := 1 }))]

/-- A record is stored over the policy. -/
def overwritten : List (Tx × Call) :=
  [(sentBy "x", .publishKey "k" (some { minAttestations := 2 })),
   (sentBy "x", .recordSignature "policy:k" "" "" "" none "" "" "")]

/-- Without any one of the three conditions there is a positive answer without its quorum. -/
theorem not_quorum_oneClient :
    ¬ Quorum "k" twoTypes ∧ ¬ Quorum "k" republished ∧ ¬ Quorum "k" overwritten := by
  -- All transactions are those of one client.
  have hclient {calls : List (Tx × Call)} (hcalls : ∀ a ∈ calls, a.1 = sentBy "x") {c : String}
      (h : CS.Occurs step (AttestedBy "k" c) genesis calls) : c = "x" := by
    obtain ⟨a, ha, st, hc, -⟩ := h.exists_mem
    rw [hcalls a ha] at hc
    exact (Except.ok.inj hc).symm
  have htwo {calls : List (Tx × Call)} (hcalls : ∀ a ∈ calls, a.1 = sentBy "x")
      (hpub : lastPublished "k" calls = some { minAttestations := 2 })
      (hverify : verifyPolicy (CS.run step genesis calls) "k" "x" "m" 0 = .ok (true, "ok")) :
      ¬ Quorum "k" calls := by
    intro h
    obtain ⟨signers, hnodup, hlen, hall⟩ := h _ "x" "m" 0 "ok" hpub hverify
    replace hlen : (2 : Int) ≤ signers.length := hlen
    have hsub : signers ⊆ ["x"] := by
      intro s hs
      exact List.mem_singleton.mpr (hclient hcalls (hall s hs).1)
    have hle := (List.subperm_of_subset hnodup hsub).length_le
    simp only [List.length_singleton] at hle
    omega
  refine ⟨htwo ?_ rfl rfl, ?_, htwo ?_ rfl rfl⟩
  · simp [twoTypes]
  · intro h
    obtain ⟨signers, hnodup, hlen, hall⟩ := h _ "y" "m" 0 "ok" rfl rfl
    obtain ⟨s, hs⟩ : ∃ s, s ∈ signers := by
      apply List.exists_mem_of_ne_nil
      rintro rfl
      simp at hlen
    have hx := hclient (by simp [republished]) (hall s hs).1
    have hy := (hall s hs).2 (by simp)
    subst hx
    simp at hy
  · simp [overwritten]

end VirtualHsm.SignatureLedger
