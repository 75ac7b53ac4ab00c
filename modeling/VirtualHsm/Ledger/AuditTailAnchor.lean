import Mathlib.Order.Bounds.Defs
import VirtualHsm.Ledger.PolicyAgreement

/-!
# The latest audit tail on the ledger

Each anchored tail is written to the key of its number and to the key of the latest tail. The
second write looks at nothing that is there: the latest tail is the one anchored last, whatever its
number. Numbers come as texts, and a text without a number counts as zero.
-/

namespace VirtualHsm.SignatureLedger

structure Anchor where
  tx : Tx
  tailHash : String
  seq : String
  timestamp : String
  deriving DecidableEq, Repr

namespace Anchor

/-- The number that is stored. -/
def number (a : Anchor) : Int := (scanInt64 a.seq).getD 0

def call (a : Anchor) : Tx × Call :=
  (a.tx, .recordAuditTail a.tailHash (scanInt64 a.seq) a.timestamp)

end Anchor

/-- `GetLatestAuditTail` after a list of transactions on an empty world state. -/
def latestAfter (as : List Anchor) : Except String AuditTail :=
  getLatestAuditTail (CS.run step (fun _ => none) (as.map Anchor.call))

/-- In every state of the run the latest tail has the largest number anchored so far, and its number
is not smaller than in any state before. -/
structure NeverBackwards (as : List Anchor) : Prop where
  largest : ∀ done, done <+: as → ∀ tail, latestAfter done = .ok tail →
    IsGreatest {n | n ∈ done.map Anchor.number} tail.seq
  monotone : ∀ done more, done ++ more <+: as → ∀ tail tail', latestAfter done = .ok tail →
    latestAfter (done ++ more) = .ok tail' → tail.seq ≤ tail'.seq

/-- The latest tail is the last one, whatever was anchored before. -/
theorem latestAfter_concat (as : List Anchor) (a : Anchor) :
    ∃ tail, latestAfter (as ++ [a]) = .ok tail ∧ tail.seq = a.number := by
  rw [latestAfter, List.map_append, CS.run_append]
  simp only [List.map_singleton, CS.run_cons, CS.run_nil, Anchor.call, step, submit,
    recordAuditTail, getLatestAuditTail, putState, Function.update_self, Value.asAuditTail]
  exact ⟨_, rfl, rfl⟩

theorem exists_last_of_latestAfter {as : List Anchor} {tail : AuditTail}
    (h : latestAfter as = .ok tail) : ∃ front a, as = front ++ [a] ∧ tail.seq = a.number := by
  induction as using List.reverseRecOn with
  | nil => cases h
  | append_singleton front a _ =>
    obtain ⟨last, hlast, hseq⟩ := latestAfter_concat front a
    obtain rfl := Except.ok.inj (hlast.symm.trans h)
    exact ⟨front, a, rfl, hseq⟩

theorem NeverBackwards.of_pairwise {as : List Anchor}
    (h : (as.map Anchor.number).Pairwise (· ≤ ·)) : NeverBackwards as := by
  have hle (front : List Anchor) (a : Anchor) (hpre : front ++ [a] <+: as) :
      ∀ n ∈ (front ++ [a]).map Anchor.number, n ≤ a.number := by
    have hsorted := h.sublist (hpre.map Anchor.number).sublist
    rw [List.map_append, List.map_singleton, List.pairwise_append] at hsorted
    intro n hn
    rw [List.map_append, List.mem_append] at hn
    rcases hn with hfront | hlast
    · exact hsorted.2.2 n hfront _ List.mem_cons_self
    · exact Int.le_of_eq (List.mem_singleton.mp hlast)
  constructor
  · intro done hpre tail htail
    obtain ⟨front, a, rfl, hseq⟩ := exists_last_of_latestAfter htail
    rw [hseq]
    exact ⟨List.mem_map_of_mem (List.mem_append_right _ List.mem_cons_self), hle front a hpre⟩
  · intro done more hpre tail tail' htail htail'
    obtain ⟨front, a, rfl, hseq⟩ := exists_last_of_latestAfter htail
    obtain ⟨front', a', heq, hseq'⟩ := exists_last_of_latestAfter htail'
    rw [hseq, hseq']
    -- The earlier last anchor is among those up to the later one.
    apply hle front' a' (heq ▸ hpre)
    rw [← heq]
    exact List.mem_map_of_mem
      (List.mem_append_left _ (List.mem_append_right _ List.mem_cons_self))

theorem NeverBackwards.pairwise {as : List Anchor} (h : NeverBackwards as) :
    (as.map Anchor.number).Pairwise (· ≤ ·) := by
  induction as using List.reverseRecOn with
  | nil => exact List.Pairwise.nil
  | append_singleton front a ih =>
    have hfront : NeverBackwards front :=
      ⟨fun done hpre => h.largest done (hpre.trans (List.prefix_append _ _)),
        fun done more hpre => h.monotone done more (hpre.trans (List.prefix_append _ _))⟩
    obtain ⟨tail, htail, hseq⟩ := latestAfter_concat front a
    -- The number that came last is the latest, so it is the greatest of all.
    have hgreatest := (h.largest (front ++ [a]) List.prefix_rfl tail htail).2
    rw [List.map_append, List.map_singleton, List.pairwise_append]
    refine ⟨ih hfront, List.pairwise_singleton _ _, fun n hn m hm => ?_⟩
    rw [List.mem_singleton.mp hm, ← hseq]
    apply hgreatest
    change n ∈ (front ++ [a]).map Anchor.number
    rw [List.map_append]
    exact List.mem_append_left _ hn

/-- The anchored tail never goes backwards exactly in the runs in which no transaction brings a
smaller number than an earlier one. -/
theorem neverBackwards_iff (as : List Anchor) :
    NeverBackwards as ↔ (as.map Anchor.number).Pairwise (· ≤ ·) :=
  ⟨NeverBackwards.pairwise, NeverBackwards.of_pairwise⟩

/-- An older tail is anchored again, as its file was truncated to it. -/
theorem not_neverBackwards_replay :
    ¬ NeverBackwards [⟨{ id := "1" }, "h5", "5", "t"⟩, ⟨{ id := "2" }, "h3", "3", "t"⟩] := by
  intro h
  exact absurd h.pairwise (by decide +kernel)

end VirtualHsm.SignatureLedger
